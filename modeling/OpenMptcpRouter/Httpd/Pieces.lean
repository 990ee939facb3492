/-
An upload request seen one segment at a time.

`httpd_appcall` searches each segment on its own.  When the segment is a piece of
an upload request, the position of whatever it finds is a position of the request
(`strstr_piece`), so that

* `contentLength_piece`, `boundary_piece` — a first segment that holds the two
  header lines yields the length and the boundary of the request;
* `firstchunk_piece` — if the data start is found at all, it is the data start;
* `Receiving R x o s` — the state of the upload after `o` bytes of the request, its
  length counted from a boundary `x` bytes behind the first one;
* `receiving_storeBody`, `bodyComplete_iff` — the next segment extends what is
  stored, and completes the upload iff `x = 0` and the request ends with it.
-/
import OpenMptcpRouter.Httpd.Invariant
import OpenMptcpRouter.Httpd.Multipart

namespace Httpd

open CString Memory Search

/-! ### Searching a piece of a stream -/

section Piece

variable {S pat : List UInt8} {o : ℕ} {e : Event}

theorem getElem?_piece (h : e.seg <+: S.drop o) {x : ℕ} (hx : x < e.seg.length) :
    e.appdataZ[x]? = S[o + x]? := by
  obtain ⟨post, hpost⟩ := h
  rw [Event.appdataZ, List.getElem?_append_left hx, ← List.getElem?_drop, ← hpost,
    List.getElem?_append_left hx]

theorem occursAt_piece (h : e.seg <+: S.drop o) {i : ℕ} (hi : i + pat.length ≤ e.seg.length) :
    OccursAt pat e.appdataZ i ↔ OccursAt pat S (o + i) := by
  simp only [occursAt_iff_getElem?]
  refine forall₂_congr fun k hk => ?_
  rw [getElem?_piece h (by omega), Nat.add_assoc]

theorem nulFree_piece (h : e.seg <+: S.drop o) {k j : ℕ} (hj : j ≤ e.seg.length) :
    NulFree e.appdataZ k j ↔ NulFree S (o + k) (o + j) := by
  constructor
  · intro hfree x hx hxj
    have := hfree (x - o) (by omega) (by omega)
    rwa [getElem?_piece h (by omega), show o + (x - o) = x by omega] at this
  · intro hfree x hx hxj
    rw [getElem?_piece h (by omega)]
    exact hfree (o + x) (by omega) (by omega)

/-- What a search in a piece of a stream finds, by positions of the stream. -/
theorem strstr_piece (h : e.seg <+: S.drop o) (hp : pat ≠ []) (hz : (0 : UInt8) ∉ pat) {k i : ℕ}
    (hk : k ≤ e.seg.length) :
    strstr e.appdataZ k pat = some i ↔
      k ≤ i ∧ i + pat.length ≤ e.seg.length ∧ OccursAt pat S (o + i) ∧
        NulFree S (o + k) (o + i) ∧ ∀ j, k ≤ j → j < i → ¬ OccursAt pat S (o + j) := by
  constructor
  · intro hs
    obtain ⟨hki, hi⟩ := strstr_appdataZ_le hp hz hk hs
    obtain ⟨_, hocc, hfree, hmin⟩ := (strstr_eq_some hp hz).mp hs
    refine ⟨hki, hi, (occursAt_piece h hi).mp hocc, (nulFree_piece h (by omega)).mp hfree,
      fun j hkj hji hoccj => hmin j hkj hji ?_⟩
    exact (occursAt_piece h (by omega)).mpr hoccj
  · rintro ⟨hki, hi, hocc, hfree, hmin⟩
    refine (strstr_eq_some hp hz).mpr ⟨hki, (occursAt_piece h hi).mpr hocc,
      (nulFree_piece h (by omega)).mpr hfree, fun j hkj hji hoccj => hmin j hkj hji ?_⟩
    exact (occursAt_piece h (by omega)).mp hoccj

end Piece

/-! ### The header lines -/

section Headers

variable {R : UploadRequest} {e : Event}

/-- In a stream that starts with the header block, a text that stands in the header
block once is first met there. -/
theorem strstr_once {pat : List UInt8} {i j : ℕ} (h : e.seg <+: R.bytes) (hp : pat ≠ [])
    (hz : (0 : UInt8) ∉ pat) (hi : OccursOnce pat R.head i)
    (hj : strstr e.appdataZ 0 pat = some j) : j = i := by
  obtain ⟨_, hle, hocc, _, hmin⟩ :=
    (strstr_piece (o := 0) (by simpa using h) hp hz (Nat.zero_le _)).mp hj
  simp only [Nat.zero_add] at hocc hmin
  have hhead : OccursAt pat R.head i := (hi i).mpr rfl
  have hlen := hhead.le_length hp
  have hbytes : OccursAt pat R.bytes i := by
    rw [UploadRequest.bytes, occursAt_append_left hlen]
    exact hhead
  have hji : j ≤ i := by
    by_contra hlt
    exact hmin i (Nat.zero_le _) (by omega) hbytes
  rw [UploadRequest.bytes, occursAt_append_left (by omega)] at hocc
  exact (hi j).mp hocc

theorem nulFree_head {k j : ℕ} (hj : j ≤ R.head.length) : NulFree R.bytes k j := by
  intro x _ hx h0
  rw [UploadRequest.bytes, List.getElem?_append_left (by omega)] at h0
  exact R.head_nul (List.mem_of_getElem? h0)

/-- A text that the header block holds is found when the segment holds it. -/
theorem strstr_isSome {pat : List UInt8} {k i : ℕ} (h : e.seg <+: R.bytes) (hp : pat ≠ [])
    (hz : (0 : UInt8) ∉ pat) (hki : k ≤ i) (hocc : OccursAt pat R.head i)
    (hi : i + pat.length ≤ e.seg.length) : (strstr e.appdataZ k pat).isSome := by
  rw [Option.isSome_iff_ne_none]
  intro hnone
  have hlen := hocc.le_length hp
  have hpiece : e.seg <+: R.bytes.drop 0 := by simpa using h
  refine (strstr_eq_none hp hz).mp hnone i hki ((occursAt_piece hpiece hi).mpr ?_)
    ((nulFree_piece hpiece (by omega)).mpr (nulFree_head (by omega)))
  rw [Nat.zero_add, UploadRequest.bytes, occursAt_append_left hlen]
  exact hocc

/-- The text behind a field name, up to its line end. -/
theorem strstr_eol {pat text : List UInt8} {i j : ℕ} (h : e.seg <+: R.bytes)
    (hocc : OccursAt (pat ++ text ++ eol) R.head i) (hline : ¬ eol <:+: text)
    (hi : i + pat.length ≤ e.seg.length)
    (hj : strstr e.appdataZ (i + pat.length) eol = some j) :
    j = i + pat.length + text.length ∧ (e.appdataZ.drop (i + pat.length)).take text.length = text ∧
      e.appdataZ[j]? = some 13 := by
  have hpiece : e.seg <+: R.bytes.drop 0 := by simpa using h
  have heol : eol ≠ [] := by decide
  obtain ⟨hle, hjlen, hat, _, hmin⟩ := (strstr_piece hpiece heol (by decide) hi).mp hj
  rw [Nat.zero_add] at hat
  have hlen := hocc.le_length (by simp [eol])
  simp only [List.length_append, UploadRequest.length_eol] at hlen hjlen
  -- the line as it stands in the stream
  have hbytes : OccursAt (pat ++ text ++ eol) R.bytes i := by
    rw [UploadRequest.bytes, occursAt_append_left (by simp [UploadRequest.length_eol]; omega)]
    exact hocc
  rw [List.append_assoc, occursAt_append] at hbytes
  have htext := hbytes.2
  have hend := (occursAt_append.mp htext).2
  have hjeq : j = i + pat.length + text.length := by
    by_contra hne
    rcases Nat.lt_or_gt_of_ne hne with hlt | hgt
    · -- a line end before the text ends lies inside the text
      have hin : OccursAt eol (text ++ eol) (j - (i + pat.length)) :=
        htext.inside hat hle (by simp [UploadRequest.length_eol]; omega)
      by_cases hlast : j - (i + pat.length) + 2 ≤ text.length
      · rw [occursAt_append_left hlast] at hin
        exact hline (infix_of_occursAt hin)
      · have h10 := (UploadRequest.eol_bytes hin).2
        rw [show j - (i + pat.length) + 1 = text.length by omega,
          List.getElem?_append_right le_rfl, Nat.sub_self] at h10
        exact absurd h10 (by decide)
    · refine hmin (i + pat.length + text.length) (by omega) hgt ?_
      rw [Nat.zero_add]
      exact hend
  refine ⟨hjeq, ?_, ?_⟩
  · apply List.ext_getElem?
    intro k
    by_cases hk : k < text.length
    · rw [List.getElem?_take, if_pos hk, List.getElem?_drop, getElem?_piece hpiece (by omega),
        Nat.zero_add, occursAt_iff_getElem?.mp htext k (by simp; omega),
        List.getElem?_append_left hk]
    · rw [List.getElem?_take, if_neg hk, List.getElem?_eq_none (by omega)]
  · rw [getElem?_piece hpiece (by omega), Nat.zero_add]
    exact (UploadRequest.eol_bytes hat).1

/-- The boundary read from a first segment is the one of the request. -/
theorem boundary_piece {bv : List UInt8} (h : e.seg <+: R.bytes)
    (hb : boundary e.appdataZ = some bv) : bv = R.delim := by
  rw [boundary] at hb
  split at hb
  · exact absurd hb (by simp)
  rename_i i hi
  split at hb
  · exact absurd hb (by simp)
  rename_i j hj
  rw [Option.some_inj] at hb
  obtain ⟨i', honce, hline⟩ := R.boundary_once
  obtain rfl := strstr_once h boundaryName_ne_nil zero_notMem_boundaryName honce hi
  have hle := strstr_appdataZ_le boundaryName_ne_nil zero_notMem_boundaryName (Nat.zero_le _) hi
  rw [← length_boundaryName] at hj hb
  obtain ⟨rfl, htext, _⟩ := strstr_eol h hline R.boundary_line hle.2 hj
  rw [Nat.add_sub_cancel_left, htext] at hb
  exact hb.symm

theorem isDigit_cr : isDigit 13 = false := by decide

theorem not_eol_infix_digits : ¬ eol <:+: R.digits := by
  intro h
  have hmem : (13 : UInt8) ∈ R.digits := h.subset (by decide)
  exact absurd (R.digits_ok.1 13 hmem) (by decide)

/-- `atoi` of the digits of the request. -/
theorem atoi_digits {buf rest : List UInt8} {k : ℕ}
    (h : buf.drop k = R.digits ++ 13 :: rest) : atoi buf k = R.n := by
  have htake : (R.digits ++ 13 :: rest).takeWhile isDigit = R.digits := by
    rw [List.takeWhile_append_of_pos R.digits_ok.1, List.takeWhile_cons, isDigit_cr]
    exact List.append_nil _
  have hn := R.n_lt
  rw [atoi_eq, h, htake, R.digits_ok.2, Nat.mod_eq_of_lt (by omega)]

/-- The length read from a first segment is the one of the request, unless the
segment ends at the colon. -/
theorem contentLength_piece {m : ℕ} (h : e.seg <+: R.bytes)
    (hcolon : ascii "Content-Length: " <:+: e.seg) (hn : contentLength e.appdataZ = some m) :
    m = R.n := by
  rw [contentLength] at hn
  split at hn
  · exact absurd hn (by simp)
  rename_i i hi
  split at hn
  · exact absurd hn (by simp)
  rename_i j hj
  rw [Option.some_inj] at hn
  have hlen : (ascii "Content-Length: ").length = 16 := by decide
  have hle : i + 16 ≤ e.seg.length := by
    obtain ⟨pre, post, hseg⟩ := hcolon
    have hk : OccursAt (ascii "Content-Length:") e.appdataZ pre.length := by
      rw [Event.appdataZ, ← hseg, show ascii "Content-Length: " = ascii "Content-Length:" ++ [32]
        by decide, List.append_assoc, List.append_assoc, ← Nat.add_zero pre.length,
        occursAt_append_right]
      simp only [List.append_assoc]
      exact occursAt_self_append _ _
    have hmin := ((strstr_eq_some lengthName_ne_nil zero_notMem_lengthName).mp hi).2.2.2 pre.length
      (Nat.zero_le _)
    have hik : i ≤ pre.length := by
      by_contra hlt
      exact hmin (by omega) hk
    have := congrArg List.length hseg
    simp only [List.length_append, hlen] at this
    omega
  obtain ⟨i', honce, hline⟩ := R.contentLength_once
  obtain rfl := strstr_once h lengthName_ne_nil zero_notMem_lengthName honce hi
  rw [← hlen] at hj hn hle
  obtain ⟨rfl, htext, hcr⟩ := strstr_eol h hline not_eol_infix_digits hle hj
  rw [← hn]
  refine atoi_digits (?_ : _ = R.digits ++ 13 :: e.appdataZ.drop
    (i + (ascii "Content-Length: ").length + R.digits.length + 1))
  rw [← List.take_append_drop R.digits.length (e.appdataZ.drop _), htext, List.drop_drop,
    List.append_cancel_left_eq]
  rw [List.drop_eq_getElem?_toList_append, hcr]
  rfl

/-- A header field that the segment holds is found, and so is its line end. -/
theorem field_found {name pat text : List UInt8} {i : ℕ} (h : e.seg <+: R.bytes)
    (hhead : R.head <+: e.seg) (hp : name ≠ []) (hz : (0 : UInt8) ∉ name)
    (honce : OccursOnce name R.head i) (hline : OccursAt (pat ++ text ++ eol) R.head i) :
    strstr e.appdataZ 0 name = some i ∧ (strstr e.appdataZ (i + pat.length) eol).isSome := by
  have hle := hhead.length_le
  have hocc : OccursAt name R.head i := (honce i).mpr rfl
  have hname := strstr_isSome h hp hz (Nat.zero_le i) hocc (le_trans (hocc.le_length hp) hle)
  obtain ⟨j, hj⟩ := Option.isSome_iff_exists.mp hname
  rw [strstr_once h hp hz honce hj] at hj
  have heol := (occursAt_append.mp hline).2
  rw [List.length_append, ← Nat.add_assoc] at heol
  exact ⟨hj, strstr_isSome h eol_ne_nil zero_notMem_eol (Nat.le_add_right _ _) heol
    (le_trans (heol.le_length eol_ne_nil) hle)⟩

/-- A first segment that holds the header block yields length and boundary. -/
theorem headers_of_head (h : e.seg <+: R.bytes) (hhead : R.head <+: e.seg) :
    contentLength e.appdataZ = some R.n ∧ boundary e.appdataZ = some R.delim := by
  constructor
  · obtain ⟨i, honce, hline⟩ := R.contentLength_once
    obtain ⟨hname, heol⟩ := field_found h hhead lengthName_ne_nil zero_notMem_lengthName honce hline
    obtain ⟨j, hj⟩ := Option.isSome_iff_exists.mp heol
    have hsome : contentLength e.appdataZ = some (atoi e.appdataZ (i + 16)) := by
      rw [show (ascii "Content-Length: ").length = 16 by decide] at hj
      simp only [contentLength, hname, hj]
    have hcolon : ascii "Content-Length: " <:+: e.seg := by
      rw [List.append_assoc, occursAt_append] at hline
      exact (infix_of_occursAt hline.1).trans hhead.isInfix
    rw [hsome, contentLength_piece h hcolon hsome]
  · obtain ⟨i, honce, hline⟩ := R.boundary_once
    obtain ⟨hname, heol⟩ :=
      field_found h hhead boundaryName_ne_nil zero_notMem_boundaryName honce hline
    obtain ⟨j, hj⟩ := Option.isSome_iff_exists.mp heol
    rw [length_boundaryName] at hj
    have hsome : boundary e.appdataZ =
        some (ascii "--" ++ (e.appdataZ.drop (i + 9)).take (j - (i + 9))) := by
      simp only [boundary, hname, hj]
    rw [hsome, boundary_piece h hsome]

theorem byteAt_append {l r : List UInt8} {k : ℕ} (h : k < l.length) :
    byteAt (l ++ r) k = byteAt l k := by
  rw [byteAt, byteAt, List.getD_append _ _ _ _ h]

theorem isGet_of_isPost {buf : List UInt8} (hpost : isPost buf = true) : isGet buf = false := by
  simp only [isPost, Bool.and_eq_true, decide_eq_true_eq] at hpost
  simp [isGet, hpost.1.1.1.1]

/-- A segment that starts like a `POST` request is one. -/
theorem isPost_of_isPrefix {head : List UInt8} (hpost : isPost head = true)
    (hhead : head <+: e.seg) : isPost e.appdata = true := by
  have hlen : 5 ≤ head.length := by
    by_contra hlt
    have h4 : byteAt head 4 = 0 := List.getD_eq_default _ _ (by omega)
    simp [isPost, h4] at hpost
  obtain ⟨post, hseg⟩ := hhead
  have hbyte : ∀ k, k < 5 → byteAt e.appdata k = byteAt head k := by
    intro k hk
    rw [Event.appdata, ← hseg, List.append_assoc, byteAt_append (by omega)]
  rw [isPost, hbyte 0 (by omega), hbyte 1 (by omega), hbyte 2 (by omega), hbyte 3 (by omega),
    hbyte 4 (by omega)]
  exact hpost

theorem isPost_of_head (hhead : R.head <+: e.seg) :
    isPost e.appdata = true ∧ isGet e.appdata = false := by
  have hpost := isPost_of_isPrefix R.isPost_head hhead
  exact ⟨hpost, isGet_of_isPost hpost⟩

end Headers

/-! ### Finding the data start -/

section FirstChunk

variable {R : UploadRequest} {e : Event} {o : ℕ} {s : State}

/-- **The data start is found where it is.**  On a piece of the request, starting at
byte `o`, `httpd_findandstore_firstchunk` either changes at most the type, or it
starts from a boundary at some `p` in the body and stores from the data start on. -/
theorem firstchunk_piece (h : e.seg <+: R.bytes.drop o) (hb : s.boundaryValue = some R.delim) :
    (∃ t, httpdFindandstoreFirstchunk s e = ({ s with upgradeType := t }, false, [])) ∨
    ∃ p t, R.head.length ≤ p ∧ p + 4 < R.dataStart ∧ o ≤ p ∧
      R.dataStart ≤ o + e.seg.length ∧ upgradeTypeAt e.appdataZ (p - o) = some t ∧
      strstr e.appdataZ 0 R.delim = some (p - o) ∧
      httpdFindandstoreFirstchunk s e =
        (storeFirstchunk { s with upgradeType := t } e R.delim (p - o) (R.dataStart - o), true,
          [(s.dataPointer, (storeFirstchunk { s with upgradeType := t } e R.delim (p - o)
            (R.dataStart - o)).upload)]) := by
  rcases firstchunk_cases s e with ⟨t, ht⟩ | ⟨bv, start, t, stop, hbv, hstart, ht, hstop, hlt, heq⟩
  · exact Or.inl ⟨t, ht⟩
  · obtain rfl : R.delim = bv := Option.some_inj.mp (hb.symm.trans hbv)
    obtain ⟨_, hle, hocc, _, _⟩ :=
      (strstr_piece h R.delim_ne_nil R.zero_notMem_delim (Nat.zero_le _)).mp hstart
    obtain ⟨hss, hle', hocc', _, hmin⟩ :=
      (strstr_piece h eol2_ne_nil zero_notMem_eol2 (by omega)).mp hstop
    obtain ⟨hhead, hp, hq⟩ := R.preamble_of_found hocc (by omega) hocc' fun j hj hj' hoccj => by
      refine hmin (j - o) (by omega) (by omega) ?_
      rwa [show o + (j - o) = j by omega]
    rw [UploadRequest.length_eol2] at hle'
    refine Or.inr ⟨o + start, t, hhead, hp, by omega, by omega, ?_⟩
    rw [Nat.add_sub_cancel_left, show R.dataStart - o = stop + 4 by omega]
    exact ⟨ht, hstart, heq⟩

end FirstChunk

/-! ### The body -/

/-- The upload of `R` after `o` bytes of the request: its length is counted from a
boundary `x` bytes behind the first one, and the data received so far lie over the
RAM content `m` unless the upload has failed. -/
structure Receiving (R : UploadRequest) (x : ℕ) (m : Ram) (o : ℕ) (s : State) : Prop where
  state : s.state = .uploadRequest
  found : s.dataStartFound = true
  boundary : s.boundaryValue = some R.delim
  dataStart_le : R.dataStart ≤ o
  le_length : o ≤ R.bytes.length
  x_le : x ≤ R.preamble.length
  total : s.uploadTotal = R.data.length + x
  upload : s.upload = o - R.dataStart
  checked : s.uploadFailed = false → sizeRefused s.upgradeType s.uploadTotal = false
  stored : s.uploadFailed = false →
    s.ram = store ramSize m loadaddr ((R.bytes.drop R.dataStart).take (o - R.dataStart))

section Body

variable {R : UploadRequest} {x o : ℕ} {m : Ram} {e : Event} {s : State}

theorem piece_le_length (h : e.seg <+: R.bytes.drop o) (ho : o ≤ R.bytes.length) :
    o + e.seg.length ≤ R.bytes.length := by
  have := h.length_le
  rw [List.length_drop] at this
  omega

/-- The bytes of a piece from stream position `q` on. -/
theorem drop_piece (h : e.seg <+: R.bytes.drop o) {q : ℕ} (hq : o ≤ q) :
    e.seg.drop (q - o) = (R.bytes.drop q).take (o + e.seg.length - q) := by
  obtain ⟨post, hpost⟩ := h
  have hdrop : R.bytes.drop q = (e.seg ++ post).drop (q - o) := by
    rw [hpost, List.drop_drop, show o + (q - o) = q by omega]
  rw [hdrop, List.drop_append]
  rw [show o + e.seg.length - q = (e.seg.drop (q - o)).length by rw [List.length_drop]; omega,
    List.take_left]

theorem length_bytes_eq :
    R.bytes.length = R.dataStart + R.data.length + R.delim.length + 6 := by
  rw [R.length_bytes, R.n_eq_length, UploadRequest.dataStart]
  omega

/-- The state after the data start has been found. -/
theorem receiving_firstchunk {p : ℕ} (hs : s.state = .uploadRequest)
    (hb : s.boundaryValue = some R.delim) (hn : s.uploadTotal = R.n)
    (hptr : s.dataPointer = loadaddr) (h : e.seg <+: R.bytes.drop o) (ho : o ≤ R.bytes.length)
    (hhead : R.head.length ≤ p) (hp : p + 4 < R.dataStart) (hop : o ≤ p)
    (hd : R.dataStart ≤ o + e.seg.length) :
    Receiving R (p - R.head.length) s.ram (o + e.seg.length)
      { storeFirstchunk s e R.delim (p - o) (R.dataStart - o) with dataStartFound := true } := by
  have hupload : (storeFirstchunk s e R.delim (p - o) (R.dataStart - o)).upload
      = o + e.seg.length - R.dataStart := by
    rw [storeFirstchunk_upload (by omega)]
    omega
  have htotal : (storeFirstchunk s e R.delim (p - o) (R.dataStart - o)).uploadTotal
      = R.data.length + (p - R.head.length) := by
    have hlen := R.n_eq_length
    have hlt := R.n_lt
    have hstart : R.dataStart = R.head.length + R.preamble.length := rfl
    simp only [storeFirstchunk, hn, u32]
    omega
  have hle := piece_le_length h ho
  constructor
  · exact hs
  · rfl
  · exact hb
  · exact hd
  · exact hle
  · simp only [UploadRequest.dataStart] at hp
    omega
  · exact htotal
  · exact hupload
  · intro hf
    simp only [storeFirstchunk, Bool.or_eq_false_iff] at hf ⊢
    exact hf.2
  · -- the data of the piece are those of the request from its first data byte on
    intro _
    have hdata : (e.appdataZ.drop (R.dataStart - o)).take (o + e.seg.length - R.dataStart)
        = (R.bytes.drop R.dataStart).take (o + e.seg.length - R.dataStart) := by
      rw [← drop_piece h (by omega), Event.appdataZ, List.drop_append,
        show o + e.seg.length - R.dataStart = (e.seg.drop (R.dataStart - o)).length by
          rw [List.length_drop]; omega, List.take_left]
    show (storeFirstchunk s e R.delim (p - o) (R.dataStart - o)).ram = _
    rw [storeFirstchunk_ram (by omega),
      show e.seg.length - (R.dataStart - o) = o + e.seg.length - R.dataStart by omega, hdata, hptr]

/-- What is stored of a request that passed the size check fits below the end of
the address space. -/
theorem Receiving.fits (hr : Receiving R x m o s) (hw : Wf s) (hf : s.uploadFailed = false) :
    loadaddr + (R.data.length + R.delim.length + 6) < ramSize := by
  have hfw := le_fwSize_of_sizeRefused (hr.checked hf)
  have hlen := (hw.boundary_ok _ hr.boundary).2.2
  have htotal := hr.total
  simp only [loadaddr, ramSize, uploadFwSizeInBytes] at *
  omega

/-- The next segment of the request extends what has been received. -/
theorem receiving_storeBody (hr : Receiving R x m o s) (hw : Wf s)
    (h : e.seg <+: R.bytes.drop o) : Receiving R x m (o + e.seg.length) (storeBody s e) := by
  have hle := piece_le_length h hr.le_length
  have hstart := hr.dataStart_le
  have hupload : (storeBody s e).upload = o + e.seg.length - R.dataStart := by
    have hlt := R.n_lt
    have hlen := R.length_bytes
    have hstart' : R.dataStart = R.head.length + R.preamble.length := rfl
    rw [storeBody_upload, hr.upload, u32]
    omega
  refine ⟨?_, ?_, ?_, by omega, hle, hr.x_le, ?_, hupload, ?_, ?_⟩
  · rw [storeBody_state]
    exact hr.state
  · rw [storeBody_dataStartFound]
    exact hr.found
  · rw [storeBody_boundaryValue]
    exact hr.boundary
  · rw [storeBody_uploadTotal]
    exact hr.total
  · rw [storeBody_uploadFailed, storeBody_upgradeType, storeBody_uploadTotal]
    exact hr.checked
  · rw [storeBody_uploadFailed]
    intro hf
    have hfit := hr.fits hw hf
    have hlen := length_bytes_eq (R := R)
    have htake : ((R.bytes.drop R.dataStart).take (o - R.dataStart)).length = o - R.dataStart := by
      rw [List.length_take, List.length_drop]
      omega
    have hptr : s.dataPointer = loadaddr + (o - R.dataStart) := by
      rw [hw.pointer hr.state hf, hr.upload, Nat.mod_eq_of_lt]
      simp only [ramSize] at hfit
      omega
    -- the segment is what follows in the stream
    have hseg : e.seg = (R.bytes.drop o).take e.seg.length := List.prefix_iff_eq_take.mp h
    have hdata : (R.bytes.drop R.dataStart).take (o - R.dataStart) ++ e.seg
        = (R.bytes.drop R.dataStart).take (o + e.seg.length - R.dataStart) := by
      rw [show o + e.seg.length - R.dataStart = o - R.dataStart + e.seg.length by omega,
        List.take_add, List.drop_drop, show R.dataStart + (o - R.dataStart) = o by omega, ← hseg]
    rw [storeBody_ram _ _ hf, hptr, hr.stored hf, ← hdata,
      ← store_store (by rw [htake]; omega), htake]

/-- The upload completes with the last byte of the request, and only if its length
is counted from the first boundary. -/
theorem bodyComplete_iff (hr : Receiving R x m o s) :
    bodyComplete s = true ↔ x = 0 ∧ o = R.bytes.length := by
  have hlen := length_bytes_eq (R := R)
  have hn := R.n_eq_length
  have hlt := R.n_lt
  have hle := hr.le_length
  have hstart := hr.dataStart_le
  have hx := hr.x_le
  simp only [bodyComplete, hr.boundary, hr.total, hr.upload, Option.getD_some, u32,
    decide_eq_true_eq]
  omega

/-- At the end of the request the RAM holds the data, and the trailer behind them. -/
theorem Receiving.data (hr : Receiving R 0 m R.bytes.length s) (hw : Wf s)
    (hf : s.uploadFailed = false) :
    s.uploadTotal = R.data.length ∧ s.ram = store ramSize m loadaddr (R.data ++ R.trailer) ∧
      slice ramSize s.ram loadaddr R.data.length = R.data := by
  have hdrop : R.bytes.drop R.dataStart = R.data ++ R.trailer := by
    rw [UploadRequest.bytes, UploadRequest.body, UploadRequest.dataStart, List.append_assoc,
      ← List.append_assoc R.head, ← List.length_append, List.drop_left]
  have hlen := length_bytes_eq (R := R)
  have htrailer := R.length_trailer
  have hram : s.ram = store ramSize m loadaddr (R.data ++ R.trailer) := by
    rw [hr.stored hf, hdrop, List.take_of_length_le]
    rw [List.length_append]
    omega
  have hfit := hr.fits hw hf
  refine ⟨by simpa using hr.total, hram, ?_⟩
  have hslice : slice ramSize s.ram loadaddr (R.data ++ R.trailer).length
      = R.data ++ R.trailer := by
    rw [hram, slice_store_self]
    rw [List.length_append]
    omega
  rw [← take_slice (n := (R.data ++ R.trailer).length) (by rw [List.length_append]; omega), hslice,
    List.take_left]

end Body

end Httpd
