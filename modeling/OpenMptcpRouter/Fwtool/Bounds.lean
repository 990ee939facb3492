/-
What the firmware manifest check touches (`fwtool_validate_manifest`).

`fwtoolAccesses` lists, in the order of the source, the bytes of the image the check
reads and the elements of its local buffer it uses: the two trailers, the copy, the
terminator at `len - 1`, and the string searches, each of which runs up to the first
zero byte of the buffer.

* `accesses_inside_iff` — **all of them are inside exactly when the two size fields
  fit**: each is only compared with the length of the image, and neither their sum nor
  the header they have to leave room for is looked at;
* `readsInside_of_inside` — the answer then depends on the image alone.

Below `2 ^ 31 - 8` bytes the `int` arithmetic of the source does not wrap.
-/
import OpenMptcpRouter.Fwtool

namespace Fwtool

open CString

/-- A byte of the image, by its offset from `ptr`, or an element of `buffer`. -/
inductive Access
  | image (off : ℤ)
  | buffer (i : ℤ)
  deriving DecidableEq, Repr

/-- The access stays inside the image or the buffer. -/
def Access.Inside (length : ℕ) : Access → Prop
  | .image off => 0 ≤ off ∧ off < length
  | .buffer i => 0 ≤ i ∧ i < bufferSize

instance (length : ℕ) (a : Access) : Decidable (a.Inside length) := by
  unfold Access.Inside; split <;> infer_instance

/-- `memcpy` of `n` bytes from offset `off` of the image. -/
def readImage (off : ℤ) (n : ℕ) : List Access := (List.range n).map fun i : ℕ => .image (off + i)

/-- The first `n` elements of the buffer. -/
def useBuffer (n : ℕ) : List Access := (List.range n).map fun i : ℕ => .buffer i

/-- The strings looked for in the manifest. -/
def manifestNames : List (List UInt8) :=
  [ascii "supported_devices", ascii "teltonika,", ascii "rutx"]

/-- The searches for the names in the buffer, up to the first that is not found. -/
def searchBuffer (buffer : List UInt8) : List (List UInt8) → List Access
  | [] => []
  | name :: names =>
    useBuffer ((cstr buffer).length + 1) ++
      if (strstr buffer 0 name).isNone then [] else searchBuffer buffer names

/-- The accesses behind the two trailers: the copy of the manifest, its terminator and
the searches in it. -/
def manifestAccesses (rd : ℤ → UInt8) (offset : ℤ) (size : ℕ) : List Access :=
  let offset : ℤ := offset - (size - trailerSize - 8)
  let len := manifestLen size
  readImage offset len ++ useBuffer len ++ [.buffer ((len : ℤ) - 1)] ++
    searchBuffer (manifestBuffer rd offset len) manifestNames

/-- The accesses of `fwtool_validate_manifest`. -/
def fwtoolAccesses (rd : ℤ → UInt8) (length : ℕ) : List Access :=
  if length < trailerSize * 2 then []
  else
    -- read signature trailer first
    let offset : ℤ := length - trailerSize
    readImage offset trailerSize ++
      if trailerBad rd offset length then []
      else
        -- read manifest trailer
        let offset : ℤ := length - trailerSize - be32 rd (offset + 12)
        readImage offset trailerSize ++
          if trailerBad rd offset length then []
          else manifestAccesses rd offset (be32 rd (offset + 12))

/-- The size field of the signature trailer. -/
def signatureSize (rd : ℤ → UInt8) (length : ℕ) : ℕ := be32 rd ((length : ℤ) - trailerSize + 12)

/-- Where the manifest trailer is looked for. -/
def manifestTrailer (rd : ℤ → UInt8) (length : ℕ) : ℤ :=
  length - trailerSize - signatureSize rd length

/-- The size field of the manifest trailer. -/
def manifestSize (rd : ℤ → UInt8) (length : ℕ) : ℕ := be32 rd (manifestTrailer rd length + 12)

/-- The size fields fit: the signature leaves room for two trailers, and the manifest is
longer than its trailer and begins inside the image.  Of a size below that of a trailer
the code makes a copy of 512 bytes. -/
def SizesFit (rd : ℤ → UInt8) (length : ℕ) : Prop :=
  length < trailerSize * 2 ∨ trailerBad rd ((length : ℤ) - trailerSize) length = true ∨
    signatureSize rd length + trailerSize ≤ length ∧
      (trailerBad rd (manifestTrailer rd length) length = true ∨
        manifestSize rd length ≠ trailerSize ∧
        (trailerSize < manifestSize rd length →
          signatureSize rd length + manifestSize rd length ≤ length + 8) ∧
        (manifestSize rd length < trailerSize →
          bufferSize + 8 ≤ signatureSize rd length + manifestSize rd length))

instance (rd : ℤ → UInt8) (length : ℕ) : Decidable (SizesFit rd length) := by
  unfold SizesFit; infer_instance

section Inside

variable {rd : ℤ → UInt8} {length n : ℕ} {off : ℤ}

theorem inside_readImage (hn : n ≠ 0) :
    (∀ a ∈ readImage off n, a.Inside length) ↔ 0 ≤ off ∧ off + n ≤ length := by
  simp only [readImage, List.mem_map, List.mem_range]
  constructor
  · intro h
    have hfirst : 0 ≤ off + (0 : ℕ) ∧ off + (0 : ℕ) < length := h _ ⟨0, by omega, rfl⟩
    have hlast : 0 ≤ off + (n - 1 : ℕ) ∧ off + (n - 1 : ℕ) < length := h _ ⟨n - 1, by omega, rfl⟩
    omega
  · rintro ⟨h, h'⟩ a ⟨i, hi, rfl⟩
    show 0 ≤ off + i ∧ off + i < length
    omega

theorem inside_useBuffer (h : n ≤ bufferSize) : ∀ a ∈ useBuffer n, a.Inside length := by
  simp only [useBuffer, List.mem_map, List.mem_range]
  rintro a ⟨i, hi, rfl⟩
  show (0 : ℤ) ≤ i ∧ (i : ℤ) < bufferSize
  omega

theorem manifestLen_eq (size : ℕ) (h : size < 2 ^ 32) :
    manifestLen size =
      if size < trailerSize then bufferSize else min (size - trailerSize) bufferSize := by
  have hts : trailerSize = 16 := rfl
  have hbs : bufferSize = 512 := rfl
  simp only [manifestLen]
  split
  · split
    · rfl
    · omega
  · split
    · omega
    · omega

theorem be32_lt (rd : ℤ → UInt8) (off : ℤ) : be32 rd off < 2 ^ 32 := by
  have h0 := (rd off).toNat_lt
  have h1 := (rd (off + 1)).toNat_lt
  have h2 := (rd (off + 2)).toNat_lt
  have h3 := (rd (off + 3)).toNat_lt
  rw [be32]
  omega

/-- The terminator ends the string inside the buffer. -/
theorem cstr_manifestBuffer_lt {len : ℕ} (hlen : len ≠ 0) (hle : len ≤ bufferSize) :
    (cstr (manifestBuffer rd off len)).length < bufferSize := by
  have hzero : (manifestBuffer rd off len)[len - 1]? = some 0 := by
    rw [manifestBuffer, if_neg hlen, List.getElem?_set_self]
    simp only [List.length_append, List.length_map, List.length_range, List.length_replicate]
    omega
  by_contra hlt
  have hseen := (lt_length_cstr_iff.mp (show len - 1 < (cstr (manifestBuffer rd off len)).length
    by omega)).2
  exact hseen (len - 1) (Nat.zero_le _) (by omega) hzero

theorem inside_searchBuffer {buffer : List UInt8} (h : (cstr buffer).length < bufferSize) :
    ∀ names, ∀ a ∈ searchBuffer buffer names, a.Inside length := by
  intro names
  induction names with
  | nil =>
    intro a ha
    simp [searchBuffer] at ha
  | cons name names ih =>
    intro a ha
    rw [searchBuffer, List.mem_append] at ha
    rcases ha with ha | ha
    · exact inside_useBuffer (by omega) a ha
    · split at ha
      · simp at ha
      · exact ih a ha

/-- The manifest is longer than its trailer and begins inside the image. -/
def ManifestFits (length : ℕ) (offset : ℤ) (size : ℕ) : Prop :=
  manifestLen size ≠ 0 ∧ 0 ≤ offset - (size - trailerSize - 8) ∧
    offset - (size - trailerSize - 8) + manifestLen size ≤ length

theorem inside_manifestAccesses {size : ℕ} (h : size < 2 ^ 32) :
    (∀ a ∈ manifestAccesses rd off size, a.Inside length) ↔ ManifestFits length off size := by
  have hle : manifestLen size ≤ bufferSize := by
    rw [manifestLen_eq size h]
    split
    · exact le_rfl
    · exact Nat.min_le_right _ _
  simp only [manifestAccesses, ManifestFits, List.forall_mem_append, List.forall_mem_singleton]
  by_cases hlen : manifestLen size = 0
  · refine iff_of_false (fun h => ?_) (fun h => h.1 hlen)
    have hterm : 0 ≤ (manifestLen size : ℤ) - 1 ∧ (manifestLen size : ℤ) - 1 < bufferSize := h.1.2
    omega
  · rw [inside_readImage hlen]
    constructor
    · rintro ⟨⟨⟨h, -⟩, -⟩, -⟩
      exact ⟨hlen, h⟩
    · rintro ⟨-, h⟩
      refine ⟨⟨⟨h, inside_useBuffer hle⟩, ?_⟩,
        inside_searchBuffer (cstr_manifestBuffer_lt hlen hle) _⟩
      show 0 ≤ (manifestLen size : ℤ) - 1 ∧ (manifestLen size : ℤ) - 1 < bufferSize
      omega

/-- In terms of the two size fields. -/
theorem manifestFits_iff (hsig : signatureSize rd length + trailerSize ≤ length) :
    ManifestFits length (manifestTrailer rd length) (manifestSize rd length) ↔
      manifestSize rd length ≠ trailerSize ∧
        (trailerSize < manifestSize rd length →
          signatureSize rd length + manifestSize rd length ≤ length + 8) ∧
        (manifestSize rd length < trailerSize →
          bufferSize + 8 ≤ signatureSize rd length + manifestSize rd length) := by
  have hts : trailerSize = 16 := rfl
  have hbs : bufferSize = 512 := rfl
  have hsize : manifestSize rd length < 2 ^ 32 := be32_lt rd _
  rw [ManifestFits, manifestLen_eq _ hsize, manifestTrailer]
  split
  · omega
  · omega

theorem fwtoolAccesses_eq (hlong : ¬ length < trailerSize * 2) :
    fwtoolAccesses rd length =
      readImage ((length : ℤ) - trailerSize) trailerSize ++
        if trailerBad rd ((length : ℤ) - trailerSize) length then []
        else
          readImage (manifestTrailer rd length) trailerSize ++
            if trailerBad rd (manifestTrailer rd length) length then []
            else manifestAccesses rd (manifestTrailer rd length) (manifestSize rd length) :=
  if_neg hlong

/-- **Memory safety of the manifest check.**  For every memory `rd` around the image. -/
theorem accesses_inside_iff (rd : ℤ → UInt8) (length : ℕ) :
    (∀ a ∈ fwtoolAccesses rd length, a.Inside length) ↔ SizesFit rd length := by
  rw [SizesFit]
  by_cases hshort : length < trailerSize * 2
  · rw [fwtoolAccesses, if_pos hshort]
    simp [hshort]
  rw [fwtoolAccesses_eq hshort]
  simp only [hshort, false_or, List.forall_mem_append]
  have hsig : 0 ≤ (length : ℤ) - trailerSize ∧ (length : ℤ) - trailerSize + trailerSize ≤ length := by
    omega
  rw [inside_readImage (by decide), and_iff_right hsig]
  by_cases hbad : trailerBad rd ((length : ℤ) - trailerSize) length = true
  · simp [hbad]
  rw [if_neg hbad, or_iff_right hbad]
  simp only [List.forall_mem_append]
  have hman : (0 ≤ manifestTrailer rd length ∧ manifestTrailer rd length + trailerSize ≤ length) ↔
      signatureSize rd length + trailerSize ≤ length := by
    rw [manifestTrailer]
    omega
  rw [inside_readImage (by decide), hman]
  refine and_congr_right fun hsig => ?_
  by_cases hbad' : trailerBad rd (manifestTrailer rd length) length = true
  · simp [hbad']
  have hsize : manifestSize rd length < 2 ^ 32 := be32_lt rd _
  rw [if_neg hbad', or_iff_right hbad', inside_manifestAccesses hsize, manifestFits_iff hsig]

/-- The accesses being inside, the answer depends on the image alone. -/
theorem readsInside_of_inside (h : ∀ a ∈ fwtoolAccesses rd length, a.Inside length) :
    ReadsInside rd length length := by
  rcases (accesses_inside_iff rd length).mp h with hshort | hbad | ⟨hsig, h⟩
  · exact Or.inl hshort
  · exact Or.inr ⟨le_rfl, Or.inl hbad⟩
  have hoff : 0 ≤ manifestTrailer rd length := by
    rw [manifestTrailer]
    omega
  refine Or.inr ⟨le_rfl, Or.inr ⟨hoff, ?_⟩⟩
  rcases h with hbad | hfits
  · exact Or.inl hbad
  · exact Or.inr ((manifestFits_iff hsig).mpr hfits).2

end Inside

/-- A file of 32 bytes whose signature trailer claims 17 of them. -/
def shortImage : List UInt8 :=
  List.replicate 16 0 ++ [0x46, 0x57, 0x78, 0x30] ++ List.replicate 8 0 ++ [0, 0, 0, 17]

/-- The check reads in front of the image. -/
theorem accesses_leave_image :
    ¬ ∀ a ∈ fwtoolAccesses (fun off => shortImage.getD off.toNat 0) shortImage.length,
      a.Inside shortImage.length := by
  decide

end Fwtool
