/-
What a `POST` request is read as.

The first segment of an upload holds the header block and, often, the part headers.
`httpd_appcall` takes three things from it by searching for texts: the length of the body,
the boundary, and the type of the upgrade.  `PostSegment` is such a segment, with what it
says; the predicates of the first part say what is read, by positions in the segment.

* `interpreted_iff` — **the request is refused, or read as it says, exactly when what the
  searches come upon is what it says**;
* `misread` — a spelling without the blank behind the colon loses its first digit;
* `lengthRead_iff` — which spellings are read in a header block with one length.
-/
import OpenMptcpRouter.Httpd.Pieces

namespace Httpd

open CString Search

/-! ### What is read -/

/-- The name attribute of a part, as it is searched for. -/
def nameText : UpgradeType → List UInt8
  | .firmware => ascii "name=\"firmware\""
  | .uboot => ascii "name=\"uboot\""
  | .art => ascii "name=\"art\""

/-- The number whose digits start at the second character behind the first
`Content-Length:`, in 32 bits; the line ends in what is seen. -/
def LengthRead (buf : List UInt8) (n : ℕ) : Prop :=
  ∃ i j, SeenAt buf (ascii "Content-Length:") 0 i ∧ SeenAt buf eol (i + 16) j ∧
    decVal ((buf.drop (i + 16)).takeWhile isDigit) % 2 ^ 32 = n

/-- The text between the first `boundary=` and the end of the line. -/
def BoundaryRead (buf b : List UInt8) : Prop :=
  ∃ i j, SeenAt buf (ascii "boundary=") 0 i ∧ SeenAt buf eol (i + 9) j ∧
    (buf.drop (i + 9)).take (j - (i + 9)) = b

/-- A name is seen somewhere behind `start`. -/
def NameSeen (buf : List UInt8) (start : ℕ) (t : UpgradeType) : Prop :=
  ∃ i, SeenAt buf (nameText t) start i

/-- The type read: of the names seen the first in the order of the source. -/
def TypeRead (buf : List UInt8) (start : ℕ) : UpgradeType → Prop
  | .firmware => NameSeen buf start .firmware
  | .uboot => ¬ NameSeen buf start .firmware ∧ NameSeen buf start .uboot
  | .art => ¬ NameSeen buf start .firmware ∧ ¬ NameSeen buf start .uboot ∧ NameSeen buf start .art

/-- The boundary line of boundary `b`, less its line end. -/
def delimOf (b : List UInt8) : List UInt8 := ascii "--" ++ b

/-- The type after the search behind the first boundary line: the one read, or the old one
when nothing is read. -/
def TypeAfter (buf b : List UInt8) (old t : UpgradeType) : Prop :=
  (∃ start, SeenAt buf (delimOf b) 0 start ∧ TypeRead buf start t) ∨
    (∀ start t', SeenAt buf (delimOf b) 0 start → ¬ TypeRead buf start t') ∧ old = t

/-- What the server takes off the length when it has found the start of the data: the text from
the first boundary line to the data, the boundary behind them and six characters. -/
def Overhead (e : Event) (b : List UInt8) (k : ℕ) : Prop :=
  ∃ start stop, SeenAt e.appdataZ (delimOf b) 0 start ∧ SeenAt e.appdataZ eol2 start stop ∧
    k = stop + 4 - start + (delimOf b).length + 6

/-- The server goes on with a body of `n` bytes, or with what is left of them for the data. -/
def TakesLength (e : Event) (b : List UInt8) (n : ℕ) (s : State) : Prop :=
  if s.dataStartFound then ∃ k, Overhead e b k ∧ s.uploadTotal + k = n else s.uploadTotal = n

/-- The size of the data that follows from what is read is refused for the type read. -/
def SizeRefused (e : Event) : Prop :=
  ∃ n b start t stop, LengthRead e.appdataZ n ∧ BoundaryRead e.appdataZ b ∧
    SeenAt e.appdataZ (delimOf b) 0 start ∧ TypeRead e.appdataZ start t ∧
    SeenAt e.appdataZ eol2 start stop ∧
    sizeRefused t (u32 ((n : ℤ) - ((stop + 4 : ℕ) - start) - (delimOf b).length - 6)) = true

section Read

variable {buf b : List UInt8} {n start : ℕ} {t : UpgradeType}

theorem contentLength_iff : contentLength buf = some n ↔ LengthRead buf n := by
  have hname : ∀ i, strstr buf 0 (ascii "Content-Length:") = some i ↔
      SeenAt buf (ascii "Content-Length:") 0 i :=
    fun i => strstr_eq_some_iff_seenAt lengthName_ne_nil zero_notMem_lengthName
  have heol : ∀ k j, strstr buf k eol = some j ↔ SeenAt buf eol k j :=
    fun k j => strstr_eq_some_iff_seenAt eol_ne_nil zero_notMem_eol
  simp only [LengthRead, ← hname, ← heol, ← atoi_eq, contentLength]
  rcases strstr buf 0 (ascii "Content-Length:") with _ | i
  · simp
  rcases hj : strstr buf (i + 16) eol with _ | j
  · simp [hj]
  · simp [hj]

theorem boundary_iff : boundary buf = some b ↔ ∃ b', b = delimOf b' ∧ BoundaryRead buf b' := by
  have hname : ∀ i, strstr buf 0 (ascii "boundary=") = some i ↔
      SeenAt buf (ascii "boundary=") 0 i :=
    fun i => strstr_eq_some_iff_seenAt boundaryName_ne_nil zero_notMem_boundaryName
  have heol : ∀ k j, strstr buf k eol = some j ↔ SeenAt buf eol k j :=
    fun k j => strstr_eq_some_iff_seenAt eol_ne_nil zero_notMem_eol
  simp only [BoundaryRead, ← hname, ← heol, boundary]
  rcases strstr buf 0 (ascii "boundary=") with _ | i
  · simp
  rcases hj : strstr buf (i + 9) eol with _ | j
  · simp [hj]
  · simp [hj, delimOf, eq_comm]

theorem not_lengthRead (h : contentLength buf = none) (n : ℕ) : ¬ LengthRead buf n := by
  intro hl
  rw [contentLength_iff.mpr hl] at h
  exact absurd h (by simp)

theorem not_boundaryRead (h : boundary buf = none) (b : List UInt8) : ¬ BoundaryRead buf b := by
  intro hb
  rw [boundary_iff.mpr ⟨b, rfl, hb⟩] at h
  exact absurd h (by simp)

theorem nameSeen_iff : NameSeen buf start t ↔ (strstr buf start (nameText t)).isSome := by
  have hp : nameText t ≠ [] := by cases t <;> decide
  have hz : (0 : UInt8) ∉ nameText t := by cases t <;> decide
  rw [Option.isSome_iff_exists]
  exact exists_congr fun i => (strstr_eq_some_iff_seenAt hp hz).symm

theorem upgradeTypeAt_iff : upgradeTypeAt buf start = some t ↔ TypeRead buf start t := by
  change (if (strstr buf start (nameText .firmware)).isSome then some UpgradeType.firmware
    else if (strstr buf start (nameText .uboot)).isSome then some .uboot
    else if (strstr buf start (nameText .art)).isSome then some .art else none) = some t ↔ _
  rcases hf : (strstr buf start (nameText .firmware)).isSome with _ | _
  swap
  · cases t <;> simp [TypeRead, nameSeen_iff, hf]
  rcases hu : (strstr buf start (nameText .uboot)).isSome with _ | _
  swap
  · cases t <;> simp [TypeRead, nameSeen_iff, hf, hu]
  rcases ha : (strstr buf start (nameText .art)).isSome with _ | _
  · cases t <;> simp [TypeRead, nameSeen_iff, hf, hu, ha]
  · cases t <;> simp [TypeRead, nameSeen_iff, hf, hu, ha]

end Read

/-! ### What the request says -/

/-- The text names `t` in its name attribute, the first one it has. -/
def NameAttribute (partHeaders : List UInt8) (t : UpgradeType) : Prop :=
  ∃ before after, partHeaders = before ++ ascii "; " ++ nameText t ++ after ∧
    ¬ ascii "; name=\"" <:+: before

/-- The first segment of an upload, with what it says. -/
structure PostSegment where
  /-- the header block, with the empty line that ends it -/
  head : List UInt8
  /-- the number of blanks behind `Content-Length:` -/
  blanks : ℕ
  digits : List UInt8
  boundary : List UInt8
  partHeaders : List UInt8
  type : UpgradeType
  data : List UInt8
  isPost_head : isPost head = true
  head_end : eol2 <:+ head
  length_line : eol ++ ascii "Content-Length:" ++ List.replicate blanks 32 ++ digits ++ eol <:+: head
  digits_ok : digits ≠ [] ∧ ∀ d ∈ digits, isDigit d = true
  boundary_line : ascii "boundary=" ++ boundary ++ eol <:+: head
  boundary_eol : ¬ eol <:+: boundary
  partHeaders_lines : NoEmptyLine partHeaders
  name_attribute : NameAttribute partHeaders type

namespace PostSegment

/-- The body length the header block states. -/
def n (P : PostSegment) : ℕ := decVal P.digits

/-- The segment. -/
def bytes (P : PostSegment) : List UInt8 :=
  P.head ++ delimOf P.boundary ++ eol ++ P.partHeaders ++ eol2 ++ P.data

/-- The call refuses the request: it aborts the connection or marks the upload failed. -/
def Refused (r : State × Out) : Prop := r.2.reply = .abort ∨ r.1.uploadFailed = true

/-- The call takes the request as it says: the upload it goes on with has the length and the
boundary of the request, and its type. -/
def Taken (P : PostSegment) (e : Event) (r : State × Out) : Prop :=
  r.1.state = .uploadRequest ∧ TakesLength e P.boundary P.n r.1 ∧
    r.1.boundaryValue = some (delimOf P.boundary) ∧ r.1.upgradeType = P.type

/-- The request is refused by what is read: there is no length or no boundary, there is no
memory for the boundary, an upload has failed before, or the size is refused. -/
def ReadRefused (s : State) (e : Event) : Prop :=
  (∀ n, ¬ LengthRead e.appdataZ n) ∨ (∀ b, ¬ BoundaryRead e.appdataZ b) ∨ e.malloc = false ∨
    s.uploadFailed = true ∨ SizeRefused e

/-- What is read is what the request says. -/
def ReadRight (P : PostSegment) (s : State) (e : Event) : Prop :=
  LengthRead e.appdataZ P.n ∧ BoundaryRead e.appdataZ P.boundary ∧
    TypeAfter e.appdataZ P.boundary s.upgradeType P.type

end PostSegment

/-! ### The call -/

section Call

variable {fs : Fs} {s : State} {e : Event} {n : ℕ} {b : List UInt8}

theorem handleRequest_of_isPost (hpost : isPost e.appdata = true) :
    handleRequest fs s e = handlePost s e := by
  rw [handleRequest, isGet_of_isPost hpost, if_neg (by simp), if_pos hpost]

theorem appcall_of_takesRequest (h : TakesRequest s e) :
    httpdAppcall fs s e = handleRequest fs s e := by
  obtain ⟨⟨hport, hclose, habort, htimedout, hpoll, hconnected⟩, hnew, hstate⟩ := h
  simp [httpdAppcall, hport, hclose, habort, htimedout, hpoll, hconnected, hnew, hstate]

theorem boundaryRead_unique {buf b b' : List UInt8} (h : BoundaryRead buf b)
    (h' : BoundaryRead buf b') : b = b' := by
  have h₁ := boundary_iff.mpr ⟨b, rfl, h⟩
  have h₂ := boundary_iff.mpr ⟨b', rfl, h'⟩
  exact List.append_cancel_left (Option.some.inj (h₁.symm.trans h₂))

theorem lengthRead_unique {buf : List UInt8} {n n' : ℕ} (h : LengthRead buf n)
    (h' : LengthRead buf n') : n = n' :=
  Option.some.inj ((contentLength_iff.mpr h).symm.trans (contentLength_iff.mpr h'))

section FirstChunk

variable (hb : BoundaryRead e.appdataZ b)

include hb

theorem seenAt_delimOf (start : ℕ) :
    strstr e.appdataZ 0 (delimOf b) = some start ↔ SeenAt e.appdataZ (delimOf b) 0 start := by
  obtain ⟨hne, hz, -⟩ := boundary_spec (boundary_iff.mpr ⟨b, rfl, hb⟩)
  exact strstr_eq_some_iff_seenAt hne hz

/-- The type left is the one that is read, or the old one. -/
theorem typeAfter_iff {old t : UpgradeType} :
    TypeAfter e.appdataZ b old t ↔
      ((strstr e.appdataZ 0 (delimOf b)).bind (upgradeTypeAt e.appdataZ)).getD old = t := by
  simp only [TypeAfter, ← seenAt_delimOf hb, ← upgradeTypeAt_iff]
  rcases strstr e.appdataZ 0 (delimOf b) with _ | start
  · simp
  have hsome : ∀ t', (∃ start', some start = some start' ∧
      upgradeTypeAt e.appdataZ start' = some t') ↔ upgradeTypeAt e.appdataZ start = some t' :=
    fun t' => by simp
  have hnone : (∀ start' t', some start = some start' →
      ¬ upgradeTypeAt e.appdataZ start' = some t') ↔ upgradeTypeAt e.appdataZ start = none := by
    rw [Option.eq_none_iff_forall_ne_some]
    exact ⟨fun h t' => h start t' rfl, fun h start' t' heq => by cases heq; exact h t'⟩
  rw [hsome, hnone, Option.bind_some]
  rcases upgradeTypeAt e.appdataZ start with _ | t'
  · simp
  · simp

/-- The type the search for the first chunk leaves. -/
theorem firstchunk_type (h : s.boundaryValue = some (delimOf b)) (t : UpgradeType) :
    (httpdFindandstoreFirstchunk s e).1.upgradeType = t ↔
      TypeAfter e.appdataZ b s.upgradeType t := by
  rw [typeAfter_iff hb, httpdFindandstoreFirstchunk, h]
  dsimp only
  rcases strstr e.appdataZ 0 (delimOf b) with _ | start
  · rfl
  dsimp only [Option.bind_some]
  rcases upgradeTypeAt e.appdataZ start with _ | t'
  · rfl
  dsimp only
  rcases strstr e.appdataZ start eol2 with _ | stop
  · rfl
  dsimp only
  split
  · rfl
  · rfl

theorem sizeRefused_iff (hl : LengthRead e.appdataZ n) :
    SizeRefused e ↔ ∃ start t stop, strstr e.appdataZ 0 (delimOf b) = some start ∧
      upgradeTypeAt e.appdataZ start = some t ∧ strstr e.appdataZ start eol2 = some stop ∧
      sizeRefused t (u32 ((n : ℤ) - ((stop + 4 : ℕ) - start) - (delimOf b).length - 6)) = true := by
  have heol : ∀ k j, strstr e.appdataZ k eol2 = some j ↔ SeenAt e.appdataZ eol2 k j :=
    fun k j => strstr_eq_some_iff_seenAt eol2_ne_nil zero_notMem_eol2
  simp only [seenAt_delimOf hb, upgradeTypeAt_iff, heol]
  constructor
  · rintro ⟨n', b', start, t, stop, hl', hb', h⟩
    obtain rfl := lengthRead_unique hl hl'
    obtain rfl := boundaryRead_unique hb hb'
    exact ⟨start, t, stop, h⟩
  · rintro ⟨start, t, stop, h⟩
    exact ⟨n, b, start, t, stop, hl, hb, h⟩

/-- The length the search for the first chunk goes on with is the one that has been read: where
what is taken off it makes it wrap around, the size is refused. -/
theorem firstchunk_takesLength (h : s.boundaryValue = some (delimOf b)) (hn : s.uploadTotal = n)
    (hlt : n < 2 ^ 32) (hfailed : (httpdFindandstoreFirstchunk s e).1.uploadFailed = false)
    (m : ℕ) :
    TakesLength e b m { (httpdFindandstoreFirstchunk s e).1 with
      dataStartFound := (httpdFindandstoreFirstchunk s e).2.1 } ↔ n = m := by
  rcases firstchunk_cases s e with ⟨t, heq⟩ | ⟨bv, start, t, stop, hbv, hstart, -, hstop, -, heq⟩
  · rw [heq]
    simp [TakesLength, hn]
  obtain rfl := Option.some.inj (h.symm.trans hbv)
  obtain ⟨hne, hz, hblen⟩ := boundary_spec (boundary_iff.mpr ⟨b, rfl, hb⟩)
  obtain ⟨hle, hend⟩ := firstchunk_stop_le hne hz hstart hstop
  -- the one thing that is taken off
  have hoverhead : ∀ k, Overhead e b k ↔ k = stop + 4 - start + (delimOf b).length + 6 := by
    intro k
    simp only [Overhead, ← seenAt_delimOf hb,
      ← strstr_eq_some_iff_seenAt eol2_ne_nil zero_notMem_eol2, hstart]
    constructor
    · rintro ⟨start', stop', hstart', hstop', hk⟩
      obtain rfl := Option.some.inj hstart'
      obtain rfl := Option.some.inj (hstop.symm.trans hstop')
      exact hk
    · exact fun hk => ⟨start, stop, rfl, hstop, hk⟩
  rw [heq] at hfailed ⊢
  have hsize : sizeRefused t
      (u32 ((n : ℤ) - ((stop + 4 : ℕ) - start) - (delimOf b).length - 6)) = false := by
    simp only [storeFirstchunk, Bool.or_eq_false_iff, hn] at hfailed
    exact hfailed.2
  have hbound : u32 ((n : ℤ) - ((stop + 4 : ℕ) - start) - (delimOf b).length - 6)
      ≤ uploadFwSizeInBytes := by
    rw [sizeRefused] at hsize
    split at hsize
    · cases hsize
    split at hsize
    · cases hsize
    · simpa using hsize
  have hseg := e.seg_lt
  rw [TakesLength, if_pos rfl]
  simp only [hoverhead, exists_eq_left, storeFirstchunk, hn]
  rw [u32, uploadFwSizeInBytes] at hbound
  rw [u32]
  omega

/-- Whether the search for the first chunk leaves the upload failed. -/
theorem firstchunk_failed (h : s.boundaryValue = some (delimOf b)) (hn : s.uploadTotal = n)
    (hl : LengthRead e.appdataZ n) :
    (httpdFindandstoreFirstchunk s e).1.uploadFailed = true ↔
      s.uploadFailed = true ∨ SizeRefused e := by
  obtain ⟨hne, hz, -⟩ := boundary_spec (boundary_iff.mpr ⟨b, rfl, hb⟩)
  rw [sizeRefused_iff hb hl, httpdFindandstoreFirstchunk, h]
  dsimp only
  rcases hstart : strstr e.appdataZ 0 (delimOf b) with _ | start
  · simp
  dsimp only
  rcases ht : upgradeTypeAt e.appdataZ start with _ | t
  · simp [ht]
  dsimp only
  rcases hstop : strstr e.appdataZ start eol2 with _ | stop
  · simp [hstop]
  have hlt : stop < e.seg.length := by
    have := (firstchunk_stop_le hne hz hstart hstop).2
    omega
  dsimp only
  rw [if_pos hlt]
  simp [storeFirstchunk, hn, ht, hstop]

end FirstChunk

end Call

namespace PostSegment

variable {P : PostSegment} {s : State} {e : Event}

theorem head_isPrefix (P : PostSegment) : P.head <+: P.bytes := by
  simp only [bytes, List.append_assoc]
  exact List.prefix_append _ _

theorem isPost_of_seg (hseg : e.seg = P.bytes) : isPost e.appdata = true :=
  isPost_of_isPrefix P.isPost_head (hseg ▸ P.head_isPrefix)

/-- A request that is not refused is taken as what is read of it. -/
theorem taken_iff {n : ℕ} {b : List UInt8} (fs : Fs) (h : TakesRequest s e)
    (hseg : e.seg = P.bytes) (hl : LengthRead e.appdataZ n) (hb : BoundaryRead e.appdataZ b)
    (hm : e.malloc = true) (hfailed : (httpdAppcall fs s e).1.uploadFailed = false) :
    P.Taken e (httpdAppcall fs s e) ↔ n = P.n ∧ b = P.boundary ∧
      TypeAfter e.appdataZ b s.upgradeType P.type := by
  rw [appcall_of_takesRequest h, handleRequest_of_isPost (isPost_of_seg hseg), handlePost,
    contentLength_iff.mpr hl, boundary_iff.mpr ⟨b, rfl, hb⟩] at hfailed ⊢
  dsimp only at hfailed ⊢
  rw [if_pos hm] at hfailed ⊢
  have hlt : n < 2 ^ 32 := by
    obtain ⟨i, j, -, -, rfl⟩ := hl
    exact Nat.mod_lt _ (by decide)
  have hlength := firstchunk_takesLength (s := beginUpload s n (delimOf b)) hb rfl rfl hlt hfailed
  have htype := firstchunk_type (s := beginUpload s n (delimOf b)) hb rfl P.type
  have hstate := firstchunk_state (beginUpload s n (delimOf b)) e
  have hbv := firstchunk_boundaryValue (beginUpload s n (delimOf b)) e
  rw [Taken, ← show TakesLength e b P.n _ ↔ n = P.n from hlength P.n]
  constructor
  · rintro ⟨-, htotal, hbound, ht⟩
    obtain rfl : b = P.boundary :=
      List.append_cancel_left (Option.some.inj (hbv.symm.trans hbound))
    exact ⟨htotal, rfl, htype.mp ht⟩
  · rintro ⟨htotal, rfl, ht⟩
    exact ⟨hstate, htotal, hbv, htype.mpr ht⟩

/-- **Refused or read as it says**, for every segment, whatever the server has been through
before. -/
theorem interpreted_iff (fs : Fs) (h : TakesRequest s e) (hseg : e.seg = P.bytes) :
    Refused (httpdAppcall fs s e) ∨ P.Taken e (httpdAppcall fs s e) ↔
      ReadRefused s e ∨ P.ReadRight s e := by
  have hcall : httpdAppcall fs s e = handleRequest fs s e := appcall_of_takesRequest h
  rw [handleRequest_of_isPost (isPost_of_seg hseg), handlePost] at hcall
  rcases hn : contentLength e.appdataZ with _ | n
  · rw [hn] at hcall
    exact iff_of_true (Or.inl (Or.inl (hcall ▸ rfl))) (Or.inl (Or.inl (not_lengthRead hn)))
  rw [hn] at hcall
  have hl := contentLength_iff.mp hn
  dsimp only at hcall
  rcases hbv : Httpd.boundary e.appdataZ with _ | bv
  · rw [hbv] at hcall
    exact iff_of_true (Or.inl (Or.inl (hcall ▸ rfl)))
      (Or.inl (Or.inr (Or.inl (not_boundaryRead hbv))))
  rw [hbv] at hcall
  obtain ⟨b, rfl, hb⟩ := boundary_iff.mp hbv
  dsimp only at hcall
  by_cases hm : e.malloc = true
  swap
  · rw [if_neg hm] at hcall
    exact iff_of_true (Or.inl (Or.inl (hcall ▸ rfl)))
      (Or.inl (Or.inr (Or.inr (Or.inl (by simpa using hm)))))
  rw [if_pos hm] at hcall
  -- length and boundary are read: what is left are the type and the sizes
  have hbound : BoundaryRead e.appdataZ P.boundary ↔ b = P.boundary :=
    ⟨fun h => boundaryRead_unique hb h, fun h => h ▸ hb⟩
  have hlen : LengthRead e.appdataZ P.n ↔ n = P.n :=
    ⟨fun h => lengthRead_unique hl h, fun h => h ▸ hl⟩
  have hrefused : Refused (httpdAppcall fs s e) ↔ ReadRefused s e := by
    have hfailed := firstchunk_failed (s := beginUpload s n (delimOf b)) hb rfl rfl hl
    rw [Refused, hcall]
    constructor
    · rintro (habort | h)
      · exact absurd habort (by simp)
      · exact Or.inr (Or.inr (Or.inr (hfailed.mp h)))
    · rintro (h | h | h | h)
      · exact absurd hl (h n)
      · exact absurd hb (h b)
      · exact absurd h (by simp [hm])
      · exact Or.inr (hfailed.mpr h)
  rw [hrefused]
  refine or_congr_right' fun hnot => ?_
  have hfailed : (httpdAppcall fs s e).1.uploadFailed = false := by
    rw [← hrefused, Refused, not_or, Bool.not_eq_true] at hnot
    exact hnot.2
  rw [taken_iff fs h hseg hl hb hm hfailed, ReadRight, hlen, hbound]
  refine and_congr_right fun _ => and_congr_right fun heq => ?_
  rw [heq]

/-- The first segment of an upload of 1999 bytes, without a blank behind the colon. -/
def unspaced : PostSegment where
  head := ascii "POST / HTTP/1.1\r\nContent-Length:1999\r\nContent-Type: x; boundary=b\r\n\r\n"
  blanks := 0
  digits := ascii "1999"
  boundary := ascii "b"
  partHeaders := ascii "Content-Disposition: form-data; name=\"uboot\""
  type := .uboot
  data := ascii "A"
  isPost_head := by decide
  head_end := by decide
  length_line := by decide
  digits_ok := ⟨by decide, List.all_eq_true.mp (by decide)⟩
  boundary_line := by decide
  boundary_eol := tinyUpload.boundary_line
  partHeaders_lines := by decide
  name_attribute := ⟨ascii "Content-Disposition: form-data", [], by decide, by decide⟩

/-- The same with one blank. -/
def spaced : PostSegment :=
  { unspaced with
    head := ascii "POST / HTTP/1.1\r\nContent-Length: 1999\r\nContent-Type: x; boundary=b\r\n\r\n"
    blanks := 1
    isPost_head := by decide
    head_end := by decide
    length_line := by decide
    boundary_line := by decide }

theorem interpreted_iff_spaced :
    ReadRefused (initial fun _ => 0) (newData 0 spaced.bytes (by decide +kernel)) ∨
      spaced.ReadRight (initial fun _ => 0) (newData 0 spaced.bytes (by decide +kernel)) := by
  refine (interpreted_iff default ⟨⟨rfl, rfl, rfl, rfl, rfl, rfl⟩, rfl, rfl⟩ rfl).mp
    (Or.inr ⟨by decide +kernel, ?_, by decide +kernel, by decide +kernel⟩)
  rw [TakesLength, if_pos (by decide +kernel)]
  refine ⟨_, ⟨70, 119, (strstr_eq_some_iff_seenAt (by decide) (by decide)).mp ?_,
    (strstr_eq_some_iff_seenAt eol2_ne_nil zero_notMem_eol2).mp ?_, rfl⟩, ?_⟩
  · decide +kernel
  · decide +kernel
  · decide +kernel

theorem unspaced_length : unspaced.bytes.length < 2 ^ 16 := by decide +kernel

/-- The segment without the blank is not refused. -/
theorem unspaced_accepted :
    let r := httpdAppcall default (initial fun _ => 0) (newData 0 unspaced.bytes unspaced_length)
    r.1.uploadFailed = false ∧ r.2.reply ≠ .abort := by
  decide +kernel

/-- The segment without the blank is taken as one of an upload of 999 bytes. -/
theorem misread :
    ¬ ∀ (fs : Fs) (P : PostSegment) (s : State) (e : Event), TakesRequest s e → e.seg = P.bytes →
      Refused (httpdAppcall fs s e) ∨ P.Taken e (httpdAppcall fs s e) := by
  intro hall
  have hreq : TakesRequest (initial fun _ => 0) (newData 0 unspaced.bytes unspaced_length) :=
    ⟨⟨rfl, rfl, rfl, rfl, rfl, rfl⟩, rfl, rfl⟩
  rcases hall default unspaced _ _ hreq rfl with (h | h) | h
  · exact absurd h unspaced_accepted.2
  · exact absurd (h.symm.trans unspaced_accepted.1) (by decide)
  have hl := contentLength_iff.mp (show contentLength (newData 0 unspaced.bytes
    unspaced_length).appdataZ = some 999 by decide +kernel)
  have hb : BoundaryRead (newData 0 unspaced.bytes unspaced_length).appdataZ (ascii "b") := by
    obtain ⟨b, heq, hb⟩ := boundary_iff.mp (show Httpd.boundary (newData 0 unspaced.bytes
      unspaced_length).appdataZ = some (delimOf (ascii "b")) by decide +kernel)
    exact List.append_cancel_left heq ▸ hb
  have hread := (taken_iff default hreq rfl hl hb rfl unspaced_accepted.1).mp h
  exact absurd hread.1 (by decide)

/-! ### Which spellings of the length are read -/

/-- The digits that the search comes upon in the line of the length. -/
def readDigits (P : PostSegment) : List UInt8 :=
  match P.blanks with
  | 0 => P.digits.tail
  | 1 => P.digits
  | _ => []

/-- Behind the character that is skipped stand the digits that are read. -/
theorem takeWhile_isDigit_line (P : PostSegment) (rest : List UInt8) :
    ((List.replicate P.blanks 32 ++ P.digits ++ 13 :: rest).drop 1).takeWhile isDigit
      = P.readDigits := by
  have hdigits : ∀ ds : List UInt8, (∀ d ∈ ds, isDigit d = true) →
      (ds ++ 13 :: rest).takeWhile isDigit = ds := by
    intro ds hds
    rw [List.takeWhile_append_of_pos hds, List.takeWhile_cons, if_neg (by decide), List.append_nil]
  obtain ⟨hne, hall⟩ := P.digits_ok
  rw [readDigits]
  rcases P.blanks with _ | _ | k
  · rcases hd : P.digits with _ | ⟨d, ds⟩
    · exact absurd hd hne
    · rw [hd] at hall
      exact hdigits ds fun x hx => hall x (List.mem_cons_of_mem d hx)
  · exact hdigits P.digits hall
  · rfl

/-- **What a header block with one length is read as.** -/
theorem lengthRead_iff {i m : ℕ} (hseg : e.seg = P.bytes) (hnul : (0 : UInt8) ∉ P.head)
    (honce : OccursOnce (ascii "Content-Length:") P.head i) :
    LengthRead e.appdataZ m ↔ decVal P.readDigits % 2 ^ 32 = m := by
  obtain ⟨rest, hrest⟩ : ∃ rest, e.appdataZ = P.head ++ rest := by
    obtain ⟨post, hpost⟩ := P.head_isPrefix
    exact ⟨post ++ 0 :: e.stale.tail, by rw [Event.appdataZ, hseg, ← hpost, List.append_assoc]⟩
  have hinside : ∀ {pat : List UInt8} {j : ℕ}, j + pat.length ≤ P.head.length →
      (OccursAt pat e.appdataZ j ↔ OccursAt pat P.head j) := by
    intro pat j hj
    rw [hrest, occursAt_append_left hj]
  have hfree : ∀ k j, j ≤ P.head.length → NulFree e.appdataZ k j := by
    intro k j hj x _ hx h0
    rw [hrest, List.getElem?_append_left (by omega)] at h0
    exact hnul (List.mem_of_getElem? h0)
  have hlen : (ascii "Content-Length:").length = 15 := by decide
  have hline : OccursAt (ascii "Content-Length:" ++ (List.replicate P.blanks 32 ++ P.digits ++ eol))
      P.head i := by
    obtain ⟨before, after, heq⟩ := P.length_line
    have hocc : OccursAt (ascii "Content-Length:" ++ (List.replicate P.blanks 32 ++ P.digits ++ eol))
        P.head (before ++ eol).length := by
      have hsplit : P.head = before ++ eol ++ (ascii "Content-Length:" ++
          (List.replicate P.blanks 32 ++ P.digits ++ eol) ++ after) := by
        rw [← heq]
        simp only [List.append_assoc]
      rw [OccursAt, hsplit, List.drop_left]
      exact List.prefix_append _ after
    rwa [(honce _).mp (occursAt_append.mp hocc).1] at hocc
  have hle := hline.le_length (by simp [ascii])
  have hpos : 0 < P.digits.length := List.length_pos_iff.mpr P.digits_ok.1
  simp only [List.length_append, List.length_replicate, hlen, UploadRequest.length_eol] at hle
  -- the name is seen at its only place
  have hname : SeenAt e.appdataZ (ascii "Content-Length:") 0 i := by
    refine ⟨Nat.zero_le i, (hinside (by omega)).mpr ((honce i).mpr rfl), hfree 0 i (by omega),
      fun j _ hj hocc => ?_⟩
    have := (honce j).mp ((hinside (by omega)).mp hocc)
    omega
  -- and so is the end of the line
  rw [occursAt_append] at hline
  have htext := hline.2
  rw [hlen, occursAt_append] at htext
  obtain ⟨j, hj⟩ : ∃ j, SeenAt e.appdataZ eol (i + 16) j := by
    rcases hs : strstr e.appdataZ (i + 16) eol with _ | j
    · rw [strstr_eq_none eol_ne_nil zero_notMem_eol] at hs
      have heol := htext.2
      simp only [List.length_append, List.length_replicate] at heol
      refine absurd (hfree (i + 16) _ (by omega)) (hs _ (by omega) ((hinside ?_).mpr heol))
      simp only [UploadRequest.length_eol]
      omega
    · exact ⟨j, (strstr_eq_some_iff_seenAt eol_ne_nil zero_notMem_eol).mp hs⟩
  have hdigits : (e.appdataZ.drop (i + 16)).takeWhile isDigit = P.readDigits := by
    obtain ⟨post, hpost⟩ := hline.2
    rw [hlen] at hpost
    rw [show i + 16 = i + 15 + 1 from rfl, ← List.drop_drop, hrest,
      List.drop_append_of_le_length (by omega), ← hpost, List.append_assoc, List.append_assoc]
    exact P.takeWhile_isDigit_line _
  constructor
  · rintro ⟨i', j', hi', -, hm⟩
    have hi := (strstr_eq_some_iff_seenAt lengthName_ne_nil zero_notMem_lengthName).mpr hname
    have hi' := (strstr_eq_some_iff_seenAt lengthName_ne_nil zero_notMem_lengthName).mpr hi'
    obtain rfl : i = i' := Option.some.inj (hi.symm.trans hi')
    rwa [hdigits] at hm
  · intro hm
    exact ⟨i, j, hname, hj, by rw [hdigits, hm]⟩

end PostSegment

end Httpd
