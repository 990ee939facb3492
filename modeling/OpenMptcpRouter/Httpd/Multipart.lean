/-
Upload requests as a browser sends them.

`UploadRequest` is a `POST` request with a multipart body: a header block that
names the length of the body and the boundary once each, and a body of one part,

    --b CRLF part-headers CRLF CRLF data CRLF --b-- CRLF

with no empty line among the part headers and `--b` neither in the header block
nor in the data.

`preamble_of_found` is what the search of `httpd_findandstore_firstchunk` rests
on: whatever piece of the request the search looks at, a boundary followed by an
empty line is followed by the empty line in front of the data.  The boundary it
starts from need not be the first one: the part headers may hold another.
-/
import OpenMptcpRouter.Httpd.Steps

namespace Httpd

open CString Search

/-- No line of the text is empty, given that a line end precedes it and a line end
and an empty line follow. -/
def NoEmptyLine (text : List UInt8) : Prop :=
  ∀ j, OccursAt eol2 (eol ++ text ++ eol2) j → j = text.length + 2

/-- `pat` stands in `l` exactly once, at position `i`. -/
def OccursOnce (pat l : List UInt8) (i : ℕ) : Prop := ∀ j, OccursAt pat l j ↔ j = i

theorem occursOnce_iff {pat l : List UInt8} {i : ℕ} (hp : pat ≠ []) (hi : i ≤ l.length) :
    OccursOnce pat l i ↔ ∀ j < l.length + 1, (OccursAt pat l j ↔ j = i) := by
  refine ⟨fun h j _ => h j, fun h j => ⟨fun hocc => ?_, ?_⟩⟩
  · have := hocc.le_length hp
    exact (h j (by omega)).mp hocc
  · rintro rfl
    exact (h j (by omega)).mpr rfl

theorem noEmptyLine_iff {text : List UInt8} :
    NoEmptyLine text ↔
      ∀ j < text.length + 7, OccursAt eol2 (eol ++ text ++ eol2) j → j = text.length + 2 := by
  refine ⟨fun h j _ => h j, fun h j hocc => h j ?_ hocc⟩
  have := hocc.le_length (by decide)
  simp only [List.length_append, show eol.length = 2 from rfl, show eol2.length = 4 from rfl] at this
  omega

instance (text : List UInt8) : Decidable (NoEmptyLine text) :=
  decidable_of_iff _ noEmptyLine_iff.symm

/-- A multipart upload request. -/
structure UploadRequest where
  /-- the header block, with the empty line that ends it -/
  head : List UInt8
  /-- the value of `Content-Length`, an `int` -/
  n : ℕ
  /-- the digits of `n` in the header block -/
  digits : List UInt8
  boundary : List UInt8
  partHeaders : List UInt8
  data : List UInt8
  isPost_head : isPost head = true
  head_nul : (0 : UInt8) ∉ head
  head_end : eol2 <:+ head
  contentLength_once : ∃ i, OccursOnce (ascii "Content-Length:") head i ∧
    OccursAt (ascii "Content-Length: " ++ digits ++ eol) head i
  digits_ok : (∀ d ∈ digits, isDigit d = true) ∧ decVal digits = n
  boundary_once : ∃ i, OccursOnce (ascii "boundary=") head i ∧
    OccursAt (ascii "boundary=" ++ boundary ++ eol) head i
  boundary_ne : boundary ≠ []
  boundary_line : ¬ eol <:+: boundary
  delim_head : ¬ ascii "--" ++ boundary <:+: head
  delim_data : ¬ ascii "--" ++ boundary <:+: data
  partHeaders_nul : (0 : UInt8) ∉ partHeaders
  partHeaders_lines : NoEmptyLine partHeaders
  n_eq : n = (ascii "--" ++ boundary ++ eol ++ partHeaders ++ eol2 ++ data ++ eol ++
    (ascii "--" ++ boundary) ++ ascii "--" ++ eol).length
  n_lt : n < 2 ^ 31

namespace UploadRequest

variable (R : UploadRequest)

/-- The boundary line without its line end. -/
def delim : List UInt8 := ascii "--" ++ R.boundary

/-- The body up to the data. -/
def preamble : List UInt8 := R.delim ++ eol ++ R.partHeaders ++ eol2

/-- The body behind the data. -/
def trailer : List UInt8 := eol ++ R.delim ++ ascii "--" ++ eol

/-- The body. -/
def body : List UInt8 := R.preamble ++ R.data ++ R.trailer

/-- The request as a byte stream. -/
def bytes : List UInt8 := R.head ++ R.body

/-- Where the data start in the stream. -/
def dataStart : ℕ := R.head.length + R.preamble.length

/-! ### Lengths -/

theorem length_eol : eol.length = 2 := rfl

theorem length_eol2 : eol2.length = 4 := rfl

theorem length_dashes : (ascii "--").length = 2 := by decide

theorem length_delim : R.delim.length = R.boundary.length + 2 := by
  rw [delim, List.length_append, length_dashes, Nat.add_comm]

theorem length_preamble : R.preamble.length = R.delim.length + R.partHeaders.length + 6 := by
  simp only [preamble, List.length_append, length_eol, length_eol2]
  omega

theorem length_trailer : R.trailer.length = R.delim.length + 6 := by
  simp only [trailer, List.length_append, length_eol, length_dashes]
  omega

theorem n_eq_length : R.n = R.preamble.length + R.data.length + R.delim.length + 6 := by
  rw [R.n_eq, preamble, delim]
  simp only [List.length_append, length_eol, length_eol2, length_dashes]
  omega

theorem length_body : R.body.length = R.n := by
  rw [R.n_eq_length, body, List.length_append, List.length_append, length_trailer]
  omega

theorem length_bytes : R.bytes.length = R.head.length + R.n := by
  rw [bytes, List.length_append, length_body]

theorem length_head : 4 ≤ R.head.length := R.head_end.length_le

/-! ### Where line ends and boundaries stand -/

theorem delim_ne_nil : R.delim ≠ [] := by
  intro h
  have := congrArg List.length h
  rw [length_delim, List.length_nil] at this
  omega

theorem zero_notMem_boundary : (0 : UInt8) ∉ R.boundary := by
  intro h
  obtain ⟨i, _, hocc⟩ := R.boundary_once
  have hinf := (infix_of_occursAt hocc).subset
  exact R.head_nul (hinf (by simp [h]))

theorem zero_notMem_delim : (0 : UInt8) ∉ R.delim := by
  rw [delim, List.mem_append, not_or]
  exact ⟨by decide, R.zero_notMem_boundary⟩

/-- The boundary has no line end in it. -/
theorem not_occursAt_eol_delim (k : ℕ) : ¬ OccursAt eol R.delim k := by
  intro h
  have hle := h.le_length (by decide)
  rw [length_eol, length_delim] at hle
  have h0 := occursAt_iff_getElem?.mp h 0 (by decide)
  rcases k with _ | _ | k
  · simp [delim, eol, show ascii "--" = [45, 45] by decide] at h0
  · simp [delim, eol, show ascii "--" = [45, 45] by decide] at h0
  · rw [delim, show k + 1 + 1 = (ascii "--").length + k by rw [length_dashes]; omega,
      occursAt_append_right] at h
    exact R.boundary_line (infix_of_occursAt h)

theorem getElem?_delim_zero : R.delim[0]? = some 45 := by
  simp [delim, show ascii "--" = [45, 45] by decide]

/-- An occurrence of the boundary starts with a dash. -/
theorem dash_of_occursAt {p : ℕ} (h : OccursAt R.delim R.bytes p) : R.bytes[p]? = some 45 := by
  have h0 := occursAt_iff_getElem?.mp h 0 (List.length_pos_iff.mpr R.delim_ne_nil)
  rw [← R.getElem?_delim_zero, ← h0, Nat.add_zero]

/-- A line end never lies inside a boundary. -/
theorem eol_outside {p q : ℕ} (hp : OccursAt R.delim R.bytes p) (hq : OccursAt eol R.bytes q) :
    q < p ∨ p + R.delim.length < q + 2 := by
  by_contra hin
  rw [not_or] at hin
  exact R.not_occursAt_eol_delim _
    (hp.inside hq (by omega) (by rw [length_eol]; omega))

theorem bytes_eq : R.bytes =
    (R.head ++ R.delim) ++ (eol ++ R.partHeaders ++ eol2) ++ (R.data ++ R.trailer) := by
  simp only [bytes, body, preamble, List.append_assoc]

theorem occursAt_delim_head : OccursAt R.delim R.bytes R.head.length := by
  have h : OccursAt R.delim R.body 0 := by
    simp only [body, preamble, List.append_assoc]
    exact occursAt_self_append _ _
  rw [bytes, ← Nat.add_zero R.head.length, occursAt_append_right]
  exact h

/-- The part headers, with the line ends around them, in the stream. -/
theorem occursAt_partHeaders {pat : List UInt8} {j : ℕ}
    (h : j + pat.length ≤ R.partHeaders.length + 6) :
    OccursAt pat R.bytes (R.head.length + R.delim.length + j) ↔
      OccursAt pat (eol ++ R.partHeaders ++ eol2) j := by
  rw [bytes_eq, ← List.length_append, occursAt_append_middle]
  simp only [List.length_append, length_eol, length_eol2]
  omega

theorem occursAt_eol2_dataStart : OccursAt eol2 R.bytes (R.dataStart - 4) := by
  rw [dataStart, length_preamble,
    show R.head.length + (R.delim.length + R.partHeaders.length + 6) - 4
      = R.head.length + R.delim.length + (R.partHeaders.length + 2) by omega,
    occursAt_partHeaders _ (by rw [length_eol2]),
    show R.partHeaders.length + 2 = (eol ++ R.partHeaders).length + 0 by
      rw [List.length_append, length_eol]; omega]
  rw [occursAt_append_right]
  exact List.prefix_rfl

theorem occursAt_eol_delim : OccursAt eol R.bytes (R.head.length + R.delim.length) := by
  rw [← Nat.add_zero (R.head.length + R.delim.length),
    occursAt_partHeaders _ (by rw [length_eol]; omega), List.append_assoc]
  exact occursAt_self_append _ _

/-- The last two bytes of the header block are a line end. -/
theorem occursAt_eol_head : OccursAt eol R.bytes (R.head.length - 2) := by
  obtain ⟨pre, hpre⟩ := R.head_end
  have hlen : R.head.length - 2 = (pre ++ eol).length := by
    rw [← hpre, List.length_append, List.length_append, length_eol, length_eol2]
    omega
  rw [hlen, bytes, ← hpre, show eol2 = eol ++ eol from rfl, ← List.append_assoc pre,
    List.append_assoc, ← Nat.add_zero (pre ++ eol).length, occursAt_append_right]
  exact occursAt_self_append _ _

theorem eol_bytes {l : List UInt8} {q : ℕ} (h : OccursAt eol l q) :
    l[q]? = some 13 ∧ l[q + 1]? = some 10 :=
  ⟨occursAt_iff_getElem?.mp h 0 (by decide), occursAt_iff_getElem?.mp h 1 (by decide)⟩

theorem eol_of_eol2 {l : List UInt8} {q : ℕ} (h : OccursAt eol2 l q) :
    OccursAt eol l q ∧ OccursAt eol l (q + 2) := by
  rw [occursAt_iff_getElem?] at h
  constructor
  · rw [occursAt_iff_getElem?]
    intro k hk
    rw [h k (by rw [length_eol] at hk; rw [length_eol2]; omega)]
    rcases k with _ | _ | k
    · rfl
    · rfl
    · rw [length_eol] at hk
      omega
  · rw [occursAt_iff_getElem?]
    intro k hk
    rw [show q + 2 + k = q + (2 + k) by omega,
      h (2 + k) (by rw [length_eol] at hk; rw [length_eol2]; omega)]
    rcases k with _ | _ | k
    · rfl
    · rfl
    · rw [length_eol] at hk
      omega

/-- No boundary starts in the header block. -/
theorem head_le_of_occursAt_delim {p : ℕ} (h : OccursAt R.delim R.bytes p) :
    R.head.length ≤ p := by
  by_contra hlt
  by_cases hin : p + R.delim.length ≤ R.head.length
  · rw [bytes, occursAt_append_left hin] at h
    exact R.delim_head (infix_of_occursAt h)
  · have hhead := R.length_head
    have hout := R.eol_outside h R.occursAt_eol_head
    have hp : p = R.head.length - 2 + 1 := by omega
    have hdash := R.dash_of_occursAt h
    rw [hp, (eol_bytes R.occursAt_eol_head).2] at hdash
    exact absurd hdash (by decide)

/-- Between the first boundary and the end of the part headers there is no empty
line. -/
theorem dataStart_le_of_occursAt_eol2 {q : ℕ} (h : OccursAt eol2 R.bytes q)
    (hq : R.head.length ≤ q) : R.dataStart ≤ q + 4 := by
  by_contra hlt
  rw [dataStart, length_preamble] at hlt
  have heol := (eol_of_eol2 h).1
  have hout := R.eol_outside R.occursAt_delim_head heol
  by_cases hlast : q + 1 = R.head.length + R.delim.length
  · -- the byte behind the boundary is CR, not LF
    have h10 := (eol_bytes heol).2
    rw [hlast, (eol_bytes R.occursAt_eol_delim).1] at h10
    exact absurd h10 (by decide)
  · obtain ⟨j, rfl⟩ : ∃ j, q = R.head.length + R.delim.length + j :=
      ⟨q - (R.head.length + R.delim.length), by omega⟩
    have hj := R.partHeaders_lines j
      ((R.occursAt_partHeaders (by rw [length_eol2]; omega)).mp h)
    omega

/-- Behind the data there is no empty line. -/
theorem trailer_eq : R.trailer = eol ++ (R.delim ++ ascii "--" ++ eol) := by
  simp only [trailer, List.append_assoc]

/-- The two dashes behind the last boundary. -/
theorem trailer_dash {i : ℕ} (hi : R.delim.length ≤ i) (hi' : i < R.delim.length + 2) :
    R.trailer[i + 2]? = some 45 := by
  rw [trailer_eq, List.getElem?_append_right (by rw [length_eol]; omega), length_eol,
    Nat.add_sub_cancel, List.append_assoc, List.getElem?_append_right hi]
  obtain hi | hi : i - R.delim.length = 0 ∨ i - R.delim.length = 1 := by omega
  · rw [hi]
    rfl
  · rw [hi]
    rfl

theorem lt_of_occursAt_eol2 {q : ℕ} (h : OccursAt eol2 R.bytes q) :
    q < R.dataStart + R.data.length := by
  by_contra hle
  obtain ⟨j, rfl⟩ : ∃ j, q = R.dataStart + R.data.length + j :=
    ⟨q - (R.dataStart + R.data.length), by omega⟩
  have htrail : OccursAt eol2 R.trailer j := by
    rwa [bytes, body, ← List.append_assoc, ← List.append_assoc,
      show R.dataStart + R.data.length = (R.head ++ R.preamble ++ R.data).length by
        simp only [dataStart, List.length_append], occursAt_append_right] at h
  have hlen := htrail.le_length (by decide)
  rw [length_trailer, length_eol2] at hlen
  have h0 := (eol_bytes (eol_of_eol2 htrail).1).1
  have h1 := (eol_bytes (eol_of_eol2 htrail).1).2
  have h2 := (eol_bytes (eol_of_eol2 htrail).2).1
  rcases j with _ | _ | j
  · -- the boundary follows at once
    rw [trailer_eq] at h2
    simp [eol, delim, show ascii "--" = [45, 45] by decide] at h2
  · rw [trailer_eq] at h0
    simp [eol] at h0
  · by_cases hin : j + 2 ≤ R.delim.length
    · have heol := (eol_of_eol2 htrail).1
      rw [trailer_eq, show j + 1 + 1 = eol.length + j by rw [length_eol]; omega, occursAt_append_right,
        List.append_assoc, occursAt_append_left hin] at heol
      exact R.not_occursAt_eol_delim j heol
    · -- one of the two dashes behind the boundary
      by_cases hj : j + 1 = R.delim.length
      · have h45 := @trailer_dash R (j + 1) (by omega) (by omega)
        rw [show j + 1 + 2 = j + 1 + 1 + 1 by omega, h1] at h45
        exact absurd h45 (by decide)
      · have h45 := @trailer_dash R j (by omega) (by omega)
        rw [show j + 2 = j + 1 + 1 by omega, h0] at h45
        exact absurd h45 (by decide)

/-- **What the search finds.**  A boundary at `p` whose next empty line is at `q`
starts in the body, and the data start right behind the empty line. -/
theorem preamble_of_found {p q : ℕ} (hp : OccursAt R.delim R.bytes p) (hpq : p ≤ q)
    (hq : OccursAt eol2 R.bytes q)
    (hmin : ∀ j, p ≤ j → j < q → ¬ OccursAt eol2 R.bytes j) :
    R.head.length ≤ p ∧ p + 4 < R.dataStart ∧ q + 4 = R.dataStart := by
  have hhead := R.head_le_of_occursAt_delim hp
  have hge := R.dataStart_le_of_occursAt_eol2 hq (by omega)
  have hstart : R.head.length + 8 ≤ R.dataStart := by
    rw [dataStart, length_preamble, length_delim]
    omega
  have hend := eol_of_eol2 R.occursAt_eol2_dataStart
  have hdash := R.dash_of_occursAt hp
  have hne : ∀ k, R.bytes[k]? = some 13 ∨ R.bytes[k]? = some 10 → p ≠ k := by
    rintro k hk rfl
    rw [hdash] at hk
    exact absurd hk (by decide)
  have h4 := hne _ (Or.inl (eol_bytes hend.1).1)
  have h3 := hne _ (Or.inr (eol_bytes hend.1).2)
  have h2 := hne _ (Or.inl (eol_bytes hend.2).1)
  have h1 := hne _ (Or.inr (eol_bytes hend.2).2)
  by_cases hdata : R.dataStart ≤ p
  · -- a boundary behind the data start is the one behind the data, and no empty line follows it
    exfalso
    have hlt := R.lt_of_occursAt_eol2 hq
    have hout := R.eol_outside hp (eol_of_eol2 hq).1
    have hin : OccursAt R.delim R.data (p - R.dataStart) := by
      have hbytes : R.bytes = (R.head ++ R.preamble) ++ R.data ++ R.trailer := by
        simp only [bytes, body, List.append_assoc]
      rw [hbytes, show p = (R.head ++ R.preamble).length + (p - R.dataStart) by
        rw [List.length_append, ← dataStart]; omega, occursAt_append_middle (by omega)] at hp
      exact hp
    exact R.delim_data (infix_of_occursAt hin)
  · refine ⟨hhead, by omega, ?_⟩
    by_contra hne'
    exact hmin (R.dataStart - 4) (by omega) (by omega) R.occursAt_eol2_dataStart

end UploadRequest

/-! ### Two requests -/

/-- The header block of an upload of `n` bytes, its body in later segments. -/
def postHead (n : String) : List UInt8 :=
  ascii "POST / HTTP/1.1\r\nContent-Length: " ++ ascii n
    ++ ascii "\r\nContent-Type: multipart/form-data; boundary=b\r\n\r\n"

/-- A small upload of a boot loader of one byte. -/
def tinyUpload : UploadRequest where
  head := postHead "31"
  n := 31
  digits := ascii "31"
  boundary := ascii "b"
  partHeaders := ascii "name=\"uboot\""
  data := [65]
  isPost_head := by decide
  head_nul := by decide
  head_end := by decide
  contentLength_once := ⟨17, (occursOnce_iff (by decide) (by decide)).mpr (by decide +kernel),
    by decide⟩
  digits_ok := ⟨List.all_eq_true.mp (by decide), by decide⟩
  boundary_once := ⟨72, (occursOnce_iff (by decide) (by decide)).mpr (by decide +kernel), by decide⟩
  boundary_ne := by decide
  boundary_line := by decide
  delim_head := by decide +kernel
  delim_data := by decide
  partHeaders_nul := by decide
  partHeaders_lines := by decide +kernel
  n_eq := by decide
  n_lt := by decide

theorem postHead_lt : (postHead "5000").length < 2 ^ 16 := by decide

theorem getPage_lt : (ascii "GET / HTTP/1.1\r\n\r\n").length < 2 ^ 16 := by decide

theorem tinyUpload_head_lt : (tinyUpload.bytes.take tinyUpload.dataStart).length < 2 ^ 16 := by
  decide

theorem tinyUpload_tail_lt : (tinyUpload.bytes.drop tinyUpload.dataStart).length < 2 ^ 16 := by
  decide

/-- An upload of a boot loader of 10240 bytes. -/
def largeUpload : UploadRequest where
  head := postHead "10270"
  n := 10270
  digits := ascii "10270"
  boundary := ascii "b"
  partHeaders := ascii "name=\"uboot\""
  data := List.replicate 10240 65
  isPost_head := by decide
  head_nul := by decide
  head_end := by decide
  contentLength_once := ⟨17, (occursOnce_iff (by decide) (by decide)).mpr (by decide +kernel),
    by decide⟩
  digits_ok := ⟨List.all_eq_true.mp (by decide), by decide⟩
  boundary_once := ⟨75, (occursOnce_iff (by decide) (by decide)).mpr (by decide +kernel), by decide⟩
  boundary_ne := by decide
  boundary_line := by decide
  delim_head := by decide +kernel
  delim_data := fun h => by
    have hdash : (45 : UInt8) ∈ List.replicate 10240 65 := h.subset (by decide)
    exact absurd (List.eq_of_mem_replicate hdash) (by decide)
  partHeaders_nul := by decide
  partHeaders_lines := by decide +kernel
  n_eq := by
    simp only [List.length_append, List.length_replicate]
    decide
  n_lt := by decide

end Httpd
