/-
Reassembly of an upload from its segments.

A cut of an upload request is any sequence of new-data calls of one connection
whose segments, put together, are the request, the first of them holding the whole
header block.  The upload goes through two phases, `Awaiting` the data start and
`Receiving` the data, and `progress_step` says what one segment does to it: the
connection is aborted, the upload goes on, or it completes.

* `reassembly_exact` — an upload that completes does so with the last byte of the
  request, and then exactly the data have been stored.

What the segments are cut at does not matter here; whether the upload completes at
all does depend on it (`Httpd.Segmentation`).
-/
import OpenMptcpRouter.Httpd.Pieces

namespace Httpd

open CString Memory Search

/-- A call for a segment of new data of connection `c`, and nothing else. -/
def Event.IsNewData (e : Event) (c : ℕ) : Prop :=
  e.conn = c ∧ e.lport = 80 ∧ e.flags = { newdata := true }

/-- The events deliver the request `R` on connection `c`, in order, in non-empty
segments, the first one holding the header block. -/
structure UploadRequest.Cut (R : UploadRequest) (c : ℕ) (es : List Event) : Prop where
  newData : ∀ e ∈ es, e.IsNewData c
  nonempty : ∀ e ∈ es, e.seg ≠ []
  stream : (es.map Event.seg).flatten = R.bytes
  head : ∃ e rest, es = e :: rest ∧ R.head <+: e.seg

/-- No call of the run aborts the connection. -/
def Open (fs : Fs) (s : State) (es : List Event) : Prop :=
  Run.AllSteps (httpdAppcall fs) (fun s e => (httpdAppcall fs s e).2.reply ≠ .abort) s es

/-- The call reaches the completion branch: it sets `webfailsafe_post_done`. -/
def Completes (fs : Fs) (s : State) (e : Event) : Prop :=
  s.postDone = false ∧ (httpdAppcall fs s e).1.postDone = true

/-! ### Calls for new data -/

section NewData

variable {e : Event} {c : ℕ} {s : State} (fs : Fs)

theorem Event.IsNewData.plain (h : e.IsNewData c) : e.Plain := by
  obtain ⟨_, hport, hflags⟩ := h
  simp [Event.Plain, hport, hflags]

theorem appcall_request (h : e.IsNewData c) (hs : s.state = .none) :
    httpdAppcall fs s e = handleRequest fs s e := by
  simp [httpdAppcall, h.2.1, h.2.2, hs]

theorem appcall_body (h : e.IsNewData c) (hs : s.state = .uploadRequest) :
    httpdAppcall fs s e = handleBody fs s e := by
  simp [httpdAppcall, h.2.1, h.2.2, hs]

end NewData

/-! ### The phases of an upload -/

/-- The data start of `R` has not been found after `o` bytes. -/
structure Awaiting (R : UploadRequest) (m : Ram) (o : ℕ) (s : State) : Prop where
  state : s.state = .uploadRequest
  lost : s.dataStartFound = false
  boundary : s.boundaryValue = some R.delim
  total : s.uploadTotal = R.n
  head_le : R.head.length ≤ o
  le_length : o ≤ R.bytes.length
  upload_le : s.upload ≤ o - R.head.length
  small : s.smallFileFlag = decide (R.n < smallFileSize)
  fresh : s.smallFileFlag = false → s.dataPointer = loadaddr ∧ s.ram = m
  ok : s.uploadFailed = false

/-- The data start of `R` has been found, and nothing but the size check has failed. -/
structure Checked (R : UploadRequest) (x : ℕ) (m : Ram) (o : ℕ) (s : State) : Prop
    extends Receiving R x m o s where
  failed : s.uploadFailed = sizeRefused s.upgradeType s.uploadTotal

/-- The upload of `R` is under way after `o` bytes. -/
def Progress (R : UploadRequest) (m : Ram) (o : ℕ) (s : State) : Prop :=
  Wf s ∧ s.postDone = false ∧ (Awaiting R m o s ∨ ∃ x, Checked R x m o s)

section Phases

variable {R : UploadRequest} {m : Ram} {e : Event} {c o : ℕ} {s : State} (fs : Fs)

/-- The first segment from an idle server: without memory the connection is
aborted, otherwise the search for the data start begins. -/
theorem appcall_first (hnd : e.IsNewData c) (hs : s.state = .none) (h : e.seg <+: R.bytes)
    (hhead : R.head <+: e.seg) :
    httpdAppcall fs s e =
      if e.malloc then
        ({ (httpdFindandstoreFirstchunk (beginUpload s R.n R.delim) e).1 with
            dataStartFound := (httpdFindandstoreFirstchunk (beginUpload s R.n R.delim) e).2.1 },
          { stores := (loadaddr, maxUbootSize) ::
              (httpdFindandstoreFirstchunk (beginUpload s R.n R.delim) e).2.2 })
      else
        resetAbort { s with smallFileFlag := s.smallFileFlag || decide (R.n < smallFileSize) } := by
  obtain ⟨hcl, hb⟩ := headers_of_head h hhead
  obtain ⟨hpost, hget⟩ := isPost_of_head hhead
  rw [appcall_request fs hnd hs, handleRequest, hget, hpost, handlePost, hcl, hb]
  rfl

/-- Finding the data start, whichever segment it is found in. -/
theorem checked_firstchunk {p : ℕ} {t : UpgradeType} (hs : s.state = .uploadRequest)
    (hb : s.boundaryValue = some R.delim) (hn : s.uploadTotal = R.n)
    (hptr : s.dataPointer = loadaddr) (hok : s.uploadFailed = false)
    (h : e.seg <+: R.bytes.drop o) (ho : o ≤ R.bytes.length) (hhead : R.head.length ≤ p)
    (hp : p + 4 < R.dataStart) (hop : o ≤ p) (hd : R.dataStart ≤ o + e.seg.length) :
    Checked R (p - R.head.length) s.ram (o + e.seg.length)
      { storeFirstchunk { s with upgradeType := t } e R.delim (p - o) (R.dataStart - o) with
        dataStartFound := true } := by
  refine ⟨?_, ?_⟩
  · exact receiving_firstchunk (s := { s with upgradeType := t }) hs hb hn hptr h ho hhead hp hop hd
  · simp [storeFirstchunk, hok]

/-- The data start is not in the first segment. -/
theorem awaiting_first (hs : s.state = .none) (hw : Wf s) (hsm : s.smallFileFlag = false)
    (hok : s.uploadFailed = false) (h : e.seg <+: R.bytes) (hhead : R.head <+: e.seg)
    (t : UpgradeType) :
    Awaiting R (fill ramSize s.ram loadaddr 0xFF maxUbootSize) e.seg.length
      { beginUpload s R.n R.delim with upgradeType := t, dataStartFound := false } := by
  refine ⟨rfl, rfl, rfl, rfl, hhead.length_le, h.length_le, ?_, ?_,
    fun _ => ⟨rfl, rfl⟩, hok⟩
  · have hup : (beginUpload s R.n R.delim).upload = 0 := hw.idle hs
    simp [hup]
  · simp [beginUpload, hsm]

/-- The data start is in the first segment. -/
theorem checked_first {p : ℕ} (hok : s.uploadFailed = false) (h : e.seg <+: R.bytes)
    (hhead : R.head.length ≤ p) (hp : p + 4 < R.dataStart) (hd : R.dataStart ≤ e.seg.length)
    (t : UpgradeType) :
    Checked R (p - R.head.length) (fill ramSize s.ram loadaddr 0xFF maxUbootSize) e.seg.length
      { storeFirstchunk { beginUpload s R.n R.delim with upgradeType := t } e R.delim (p - 0)
        (R.dataStart - 0) with dataStartFound := true } := by
  have hc := checked_firstchunk (t := t) (s := beginUpload s R.n R.delim) (o := 0) rfl rfl rfl rfl
    hok (by simpa using h) (Nat.zero_le _) hhead hp (Nat.zero_le _) (by omega)
  rwa [Nat.zero_add] at hc

/-- The search in the first segment leaves the upload under way. -/
theorem phase_first (hs : s.state = .none) (hw : Wf s) (hsm : s.smallFileFlag = false)
    (hok : s.uploadFailed = false) (h : e.seg <+: R.bytes) (hhead : R.head <+: e.seg) :
    (httpdFindandstoreFirstchunk (beginUpload s R.n R.delim) e).1.postDone = s.postDone ∧
      (Awaiting R (fill ramSize s.ram loadaddr 0xFF maxUbootSize) e.seg.length
          { (httpdFindandstoreFirstchunk (beginUpload s R.n R.delim) e).1 with
            dataStartFound := (httpdFindandstoreFirstchunk (beginUpload s R.n R.delim) e).2.1 } ∨
        ∃ x, Checked R x (fill ramSize s.ram loadaddr 0xFF maxUbootSize) e.seg.length
          { (httpdFindandstoreFirstchunk (beginUpload s R.n R.delim) e).1 with
            dataStartFound := (httpdFindandstoreFirstchunk (beginUpload s R.n R.delim) e).2.1 }) := by
  have hpiece : e.seg <+: R.bytes.drop 0 := by simpa using h
  rcases firstchunk_piece (s := beginUpload s R.n R.delim) hpiece rfl with
    ⟨t, ht⟩ | ⟨p, t, hp1, hp2, _, hp4, _, _, hfound⟩
  · rw [ht]
    exact ⟨rfl, Or.inl (awaiting_first hs hw hsm hok h hhead t)⟩
  · rw [hfound]
    exact ⟨rfl, Or.inr ⟨p - R.head.length, checked_first hok h hp1 hp2 (by omega) t⟩⟩

/-- The first segment leaves the upload under way or aborts the connection. -/
theorem progress_first (ram : Ram) (hnd : e.IsNewData c) (h : e.seg <+: R.bytes)
    (hhead : R.head <+: e.seg)
    (hopen : (httpdAppcall fs (initial ram) e).2.reply ≠ .abort) :
    Progress R (fill ramSize ram loadaddr 0xFF maxUbootSize) e.seg.length
      (httpdAppcall fs (initial ram) e).1 := by
  have hwf := wf_step fs e (wf_initial ram)
  refine ⟨hwf, ?_⟩
  rw [appcall_first fs hnd rfl h hhead] at hopen ⊢
  split at hopen
  · rename_i hm
    rw [if_pos hm]
    exact phase_first (s := initial ram) rfl (wf_initial ram) rfl rfl h hhead
  · exact absurd rfl hopen

/-- A small file whose data start was not in the segment of the headers: the segment
is stored as it is, and never completes the upload. -/
theorem awaiting_small (ha : Awaiting R m o s) (hnd : e.IsNewData c)
    (h : e.seg <+: R.bytes.drop o) (hsm : s.smallFileFlag = true) :
    (httpdAppcall fs s e).2.reply = .none ∧ (httpdAppcall fs s e).1.postDone = s.postDone ∧
      Awaiting R m (o + e.seg.length) (httpdAppcall fs s e).1 := by
  have hle := piece_le_length h ha.le_length
  have hlen := R.length_bytes
  have hhead := ha.head_le
  have hup := ha.upload_le
  have hlt := R.n_lt
  have hsize : R.n < smallFileSize := by simpa [hsm] using ha.small
  have hupload : (storeBody s e).upload ≤ o + e.seg.length - R.head.length := by
    rw [storeBody_upload, u32]
    omega
  have hbv : R.delim.length < 2 ^ 31 - R.n := by
    have := R.n_eq_length
    have := R.length_preamble
    simp only [smallFileSize] at hsize
    omega
  have hc : bodyComplete (storeBody s e) = false := by
    simp only [bodyComplete, storeBody_uploadTotal, storeBody_boundaryValue, ha.boundary,
      ha.total, Option.getD_some, decide_eq_false_iff_not, u32]
    omega
  rw [appcall_body fs hnd ha.state, handleBody, if_pos ha.state]
  simp only [hsm, Bool.not_true, Bool.false_and, Bool.false_eq_true, if_false, hc]
  refine ⟨trivial, storeBody_postDone s e, ⟨?_, ?_, ?_, ?_, by omega, hle, hupload, ?_, ?_, ?_⟩⟩
  · rw [storeBody_state, ha.state]
  · rw [storeBody_dataStartFound, ha.lost]
  · rw [storeBody_boundaryValue, ha.boundary]
  · rw [storeBody_uploadTotal, ha.total]
  · rw [storeBody_smallFileFlag, ha.small]
  · rw [storeBody_smallFileFlag, hsm]
    exact fun hf => absurd hf (by simp)
  · rw [storeBody_uploadFailed, ha.ok]

/-- A large file whose data start was not in the segment of the headers: the search
in the next segment decides. -/
theorem awaiting_large (ha : Awaiting R m o s) (hnd : e.IsNewData c)
    (hsm : s.smallFileFlag = false) :
    httpdAppcall fs s e =
      if (httpdFindandstoreFirstchunk s e).2.1 then
        ({ (httpdFindandstoreFirstchunk s e).1 with dataStartFound := true },
          { stores := (httpdFindandstoreFirstchunk s e).2.2 })
      else
        (httpdStateReset (httpdFindandstoreFirstchunk s e).1,
          { reply := .abort, stores := (httpdFindandstoreFirstchunk s e).2.2 }) := by
  rw [appcall_body fs hnd ha.state, handleBody, if_pos ha.state]
  simp only [hsm, ha.lost, Bool.not_false, Bool.and_self, if_true]

/-- What a segment does before the data start has been found. -/
theorem awaiting_step (ha : Awaiting R m o s) (hnd : e.IsNewData c)
    (h : e.seg <+: R.bytes.drop o)
    (hopen : (httpdAppcall fs s e).2.reply ≠ .abort) :
    (httpdAppcall fs s e).1.postDone = s.postDone ∧
      (Awaiting R m (o + e.seg.length) (httpdAppcall fs s e).1 ∨
        ∃ x, Checked R x m (o + e.seg.length) (httpdAppcall fs s e).1) := by
  by_cases hsm : s.smallFileFlag = true
  · obtain ⟨_, hpd, ha'⟩ := awaiting_small fs ha hnd h hsm
    exact ⟨hpd, Or.inl ha'⟩
  · simp only [Bool.not_eq_true] at hsm
    rw [awaiting_large fs ha hnd hsm] at hopen ⊢
    obtain ⟨hptr, rfl⟩ := ha.fresh hsm
    rcases firstchunk_piece h ha.boundary with ⟨t, ht⟩ | ⟨p, t, hp1, hp2, hp3, hp4, _, _, heq⟩
    · simp [ht] at hopen
    · simp only [heq, if_true]
      exact ⟨rfl, Or.inr ⟨p - R.head.length, checked_firstchunk ha.state ha.boundary ha.total hptr
        ha.ok h ha.le_length hp1 hp2 hp3 hp4⟩⟩

theorem checked_storeBody {x : ℕ} (hc : Checked R x m o s) (hw : Wf s)
    (h : e.seg <+: R.bytes.drop o) : Checked R x m (o + e.seg.length) (storeBody s e) := by
  refine ⟨receiving_storeBody hc.toReceiving hw h, ?_⟩
  rw [storeBody_uploadFailed, storeBody_upgradeType, storeBody_uploadTotal, hc.failed]

/-- What a segment does once the data start has been found. -/
theorem appcall_receiving {x : ℕ} (hc : Checked R x m o s) (hw : Wf s) (hnd : e.IsNewData c)
    (h : e.seg <+: R.bytes.drop o) :
    (httpdAppcall fs s e).1 =
      if x = 0 ∧ o + e.seg.length = R.bytes.length then finishUpload fs (storeBody s e)
      else storeBody s e := by
  have hiff := bodyComplete_iff (checked_storeBody hc hw h).toReceiving
  rw [appcall_body fs hnd hc.state, handleBody, if_pos hc.state]
  simp only [hc.found, Bool.not_true, Bool.and_false, Bool.false_eq_true, if_false]
  by_cases hfin : x = 0 ∧ o + e.seg.length = R.bytes.length
  · rw [if_pos hfin, if_pos (hiff.mpr hfin)]
  · rw [if_neg hfin, if_neg (fun hb => hfin (hiff.mp hb))]

/-- **One segment of the upload.**  If the connection is not aborted, the upload goes
on, or the segment is the last one and the data have been received as counted from
the first boundary. -/
theorem progress_step (hp : Progress R m o s) (hnd : e.IsNewData c)
    (h : e.seg <+: R.bytes.drop o) (hopen : (httpdAppcall fs s e).2.reply ≠ .abort) :
    Progress R m (o + e.seg.length) (httpdAppcall fs s e).1 ∨
      o + e.seg.length = R.bytes.length ∧ Wf (storeBody s e) ∧
        Checked R 0 m R.bytes.length (storeBody s e) ∧
        (httpdAppcall fs s e).1 = finishUpload fs (storeBody s e) := by
  obtain ⟨hw, hpd, ha | ⟨x, hc⟩⟩ := hp
  · obtain ⟨hpd', hphase⟩ := awaiting_step fs ha hnd h hopen
    exact Or.inl ⟨wf_step fs e hw, hpd'.trans hpd, hphase⟩
  · have hstep := appcall_receiving fs hc hw hnd h
    have hc' := checked_storeBody hc hw h
    by_cases hfin : x = 0 ∧ o + e.seg.length = R.bytes.length
    · rw [if_pos hfin] at hstep
      obtain ⟨rfl, hend⟩ := hfin
      refine Or.inr ⟨hend, wf_storeBody hw hc.state (Or.inr hc.found), ?_, hstep⟩
      rw [← hend]
      exact hc'
    · rw [if_neg hfin] at hstep
      have hw' := wf_step fs e hw
      rw [hstep] at hw' ⊢
      exact Or.inl ⟨hw', by rw [storeBody_postDone, hpd], Or.inr ⟨x, hc'⟩⟩

end Phases

/-! ### Runs -/

section Runs

variable {R : UploadRequest} {m : Ram} {c : ℕ} (fs : Fs)

/-- A call that aborts the connection completes nothing. -/
theorem postDone_of_abort {s : State} {e : Event}
    (h : (httpdAppcall fs s e).2.reply = .abort) :
    (httpdAppcall fs s e).1.postDone = s.postDone := by
  have hexit := exit_of_appcall fs s e
  generalize httpdAppcall fs s e = r at hexit h ⊢
  cases hexit with
  | firstLost =>
    rcases firstchunk_cases s e with ⟨t, ht⟩ | ⟨_, _, _, _, _, _, _, _, _, heq⟩
    · rw [ht]
      rfl
    · rw [heq]
      rfl
  | foreign => rfl
  | closed => rfl
  | tick => rfl
  | refuse => rfl
  | refusePost => rfl
  | _ => exact absurd h (by simp)

/-- As long as the request has not ended, the upload is under way. -/
theorem progress_serve {rest : List UInt8} (hrest : rest ≠ []) :
    ∀ {es : List Event} {o : ℕ} {s : State}, Progress R m o s → (∀ e ∈ es, e.IsNewData c) →
      (es.map Event.seg).flatten ++ rest = R.bytes.drop o → Open fs s es →
        Progress R m (o + (es.map Event.seg).flatten.length) (serve fs s es) := by
  intro es
  induction es with
  | nil => exact fun hp _ _ _ => hp
  | cons e es ih =>
    intro o s hp hnd hstream hopen
    rw [List.map_cons, List.flatten_cons, List.append_assoc] at hstream
    have hpiece : e.seg <+: R.bytes.drop o := ⟨_, hstream⟩
    have htail : (es.map Event.seg).flatten ++ rest = R.bytes.drop (o + e.seg.length) := by
      rw [← List.drop_drop, ← hstream, List.drop_left]
    rcases progress_step fs hp (hnd e List.mem_cons_self) hpiece hopen.1 with hp' | ⟨hend, _⟩
    · have hrun := ih hp' (fun e' he' => hnd e' (List.mem_cons_of_mem e he')) htail hopen.2
      rwa [Nat.add_assoc, ← List.length_append] at hrun
    · -- the request has ended, so nothing is left
      rw [hend, List.drop_length] at htail
      exact absurd (List.append_eq_nil_iff.mp htail).2 hrest

theorem finishUpload_ram (s : State) : (finishUpload fs s).ram = s.ram := rfl

theorem finishUpload_xferSize (s : State) :
    (finishUpload fs s).netBootFileXferSize = s.uploadTotal := rfl

theorem finishUpload_uploadFailed (s : State) :
    (finishUpload fs s).uploadFailed = failedAtEnd s := rfl

/-- The state before a segment of a cut, and the segment as a piece of the request. -/
theorem progress_of_cut {ram : Ram} {es pre post : List Event} {e : Event}
    (cut : R.Cut c es) (hes : es = pre ++ e :: post) (hpre : pre ≠ [])
    (hopen : Open fs (initial ram) pre) :
    ∃ o, Progress R (fill ramSize ram loadaddr 0xFF maxUbootSize) o (serve fs (initial ram) pre) ∧
      e.seg ++ (post.map Event.seg).flatten = R.bytes.drop o := by
  obtain ⟨first, rest, hfirst, hhead⟩ := cut.head
  obtain ⟨e₁, pre', rfl⟩ := List.exists_cons_of_ne_nil hpre
  obtain ⟨rfl, -⟩ : first = e₁ ∧ rest = pre' ++ e :: post := by
    rw [hes] at hfirst
    simpa [eq_comm] using hfirst
  have hmem : ∀ e' ∈ first :: pre', e' ∈ es := fun e' he' => by
    rw [hes]
    exact List.mem_append_left _ he'
  have hstream : first.seg ++ ((pre'.map Event.seg).flatten ++
      (e.seg ++ (post.map Event.seg).flatten)) = R.bytes := by
    rw [← cut.stream, hes]
    simp
  have hprog := progress_first fs ram (cut.newData first (hmem _ List.mem_cons_self))
    ⟨_, hstream⟩ hhead hopen.1
  have hne : e.seg ++ (post.map Event.seg).flatten ≠ [] := fun h =>
    cut.nonempty e (by rw [hes]; simp) (List.append_eq_nil_iff.mp h).1
  have htail : (pre'.map Event.seg).flatten ++ (e.seg ++ (post.map Event.seg).flatten)
      = R.bytes.drop first.seg.length := by
    rw [← hstream, List.drop_left]
  have hrun : Progress R _ _ (serve fs _ pre') := progress_serve fs hne hprog
    (fun e' he' => cut.newData e' (hmem e' (List.mem_cons_of_mem _ he'))) htail hopen.2
  refine ⟨_, hrun, ?_⟩
  rw [← List.drop_drop, ← htail, List.drop_left]

/-- **Upload reassembly is exact.**  Whatever the cut, if a call completes the upload
then it is the one with the last byte of the request, and unless the upload is failed
its length is that of the data and the RAM holds exactly the data. -/
theorem reassembly_exact (R : UploadRequest) (c : ℕ) (ram : Ram) (es pre post : List Event)
    (e : Event) (cut : R.Cut c es) (hes : es = pre ++ e :: post)
    (hopen : Open fs (initial ram) pre) (hdone : Completes fs (serve fs (initial ram) pre) e) :
    post = [] ∧
      ((serve fs (initial ram) (pre ++ [e])).uploadFailed = false →
        (serve fs (initial ram) (pre ++ [e])).netBootFileXferSize = R.data.length ∧
        slice ramSize (serve fs (initial ram) (pre ++ [e])).ram loadaddr R.data.length
          = R.data) := by
  have hnd : e.IsNewData c := cut.newData e (by rw [hes]; simp)
  have hopen_e : (httpdAppcall fs (serve fs (initial ram) pre) e).2.reply ≠ .abort := by
    intro habort
    have := postDone_of_abort fs habort
    rw [hdone.1, hdone.2] at this
    exact absurd this (by simp)
  rw [serve, Run.exec_concat]
  rcases List.eq_nil_or_concat' pre with rfl | ⟨_, _, hpre⟩
  · -- the first segment never completes the upload
    exfalso
    obtain ⟨first, rest, hfirst, hhead⟩ := cut.head
    obtain ⟨rfl, rfl⟩ : first = e ∧ rest = post := by
      rw [hes] at hfirst
      simpa [eq_comm] using hfirst
    have hstream : first.seg ++ (rest.map Event.seg).flatten = R.bytes := by
      rw [← cut.stream, hes]
      simp
    have hprog := progress_first fs ram hnd ⟨_, hstream⟩ hhead hopen_e
    exact absurd (hprog.2.1.symm.trans hdone.2) (by simp)
  · obtain ⟨o, hprog, hdrop⟩ := progress_of_cut fs cut hes (by rw [hpre]; simp) hopen
    rcases progress_step fs hprog hnd ⟨_, hdrop⟩ hopen_e with hp' | ⟨hend, hw, hc, hfin⟩
    · exact absurd (hp'.2.1.symm.trans hdone.2) (by simp)
    · refine ⟨?_, ?_⟩
      · -- nothing is left behind the last byte
        have hnil : (post.map Event.seg).flatten = [] := by
          have htail : (post.map Event.seg).flatten = R.bytes.drop (o + e.seg.length) := by
            rw [← List.drop_drop, ← hdrop, List.drop_left]
          rw [htail, hend, List.drop_length]
        rcases post with _ | ⟨e', post⟩
        · rfl
        · simp only [List.map_cons, List.flatten_cons, List.append_eq_nil_iff] at hnil
          exact absurd hnil.1 (cut.nonempty e' (by rw [hes]; simp))
      · rw [hfin, finishUpload_ram, finishUpload_xferSize, finishUpload_uploadFailed]
        intro hf
        rw [failedAtEnd, Bool.or_eq_false_iff] at hf
        obtain ⟨htotal, _, hslice⟩ := hc.toReceiving.data hw hf.1
        exact ⟨htotal, hslice⟩

end Runs

/-- The large upload with its first data byte in the segment of the headers. -/
def largeFirst : Event :=
  newData 0 (largeUpload.head ++ largeUpload.preamble ++ [65]) (by decide +kernel)

/-- The rest of the large upload. -/
def largeRest : Event :=
  newData 0 (List.replicate 10239 65 ++ largeUpload.trailer) (by
    rw [List.length_append, List.length_replicate]
    decide)

theorem cut_large : largeUpload.Cut 0 [largeFirst, largeRest] where
  newData := by
    intro e he
    simp only [List.mem_cons, List.not_mem_nil, or_false] at he
    rcases he with rfl | rfl
    · exact ⟨rfl, rfl, rfl⟩
    · exact ⟨rfl, rfl, rfl⟩
  nonempty := by
    intro e he
    simp only [List.mem_cons, List.not_mem_nil, or_false] at he
    rcases he with rfl | rfl
    · exact List.append_ne_nil_of_right_ne_nil _ (by decide)
    · exact List.append_ne_nil_of_right_ne_nil _ (by decide)
  stream := by
    simp only [largeFirst, largeRest, newData, List.map_cons, List.map_nil, List.flatten_cons,
      List.flatten_nil, List.append_nil, UploadRequest.bytes, UploadRequest.body,
      List.append_assoc, List.append_cancel_left_eq]
    rfl
  head := ⟨largeFirst, [largeRest], rfl,
    (List.prefix_append largeUpload.head _).trans (List.prefix_append _ [65])⟩

/-- The server between the two segments. -/
theorem serve_largeFirst :
    let s := serve default (initial fun _ => 0) [largeFirst]
    s.state = .uploadRequest ∧ s.dataStartFound = true ∧ s.uploadFailed = false ∧
      s.postDone = false ∧ s.uploadTotal = 10240 ∧ s.upload = 1 ∧
      s.boundaryValue = some (ascii "--b") ∧ s.upgradeType = .uboot := by
  decide +kernel

theorem completes_largeRest :
    (httpdAppcall default (serve default (initial fun _ => 0) [largeFirst]) largeRest).1 =
      finishUpload default (storeBody (serve default (initial fun _ => 0) [largeFirst]) largeRest) ∧
    failedAtEnd (storeBody (serve default (initial fun _ => 0) [largeFirst]) largeRest) = false := by
  obtain ⟨hstate, hfound, hok, _, htotal, hupload, hb, htype⟩ := serve_largeFirst
  generalize serve default (initial fun _ => 0) [largeFirst] = s at *
  have hlen : largeRest.seg.length = 10248 := by
    rw [largeRest, newData, List.length_append, List.length_replicate]
    rfl
  have hc : bodyComplete (storeBody s largeRest) = true := by
    rw [bodyComplete, storeBody_upload, storeBody_uploadTotal, storeBody_boundaryValue, htotal,
      hupload, hb, hlen]
    decide
  constructor
  · rw [appcall_body default (c := 0) ⟨rfl, rfl, rfl⟩ hstate, handleBody, if_pos hstate]
    simp only [hfound, Bool.not_true, Bool.and_false, Bool.false_eq_true, if_false, hc, if_true]
  · rw [failedAtEnd, storeBody_uploadFailed, storeBody_upgradeType, hok, htype]
    rfl

theorem reassembly_exact_large :
    (serve default (initial fun _ => 0) [largeFirst, largeRest]).netBootFileXferSize = 10240 ∧
      slice ramSize (serve default (initial fun _ => 0) [largeFirst, largeRest]).ram loadaddr 10240
        = List.replicate 10240 65 := by
  have hpre : Open default (initial fun _ => 0) [largeFirst] := ⟨by decide +kernel, trivial⟩
  have hdone : Completes default (serve default (initial fun _ => 0) [largeFirst]) largeRest := by
    refine ⟨serve_largeFirst.2.2.2.1, ?_⟩
    rw [completes_largeRest.1]
    rfl
  have hfailed : (serve default (initial fun _ => 0) ([largeFirst] ++ [largeRest])).uploadFailed
      = false := by
    rw [serve, Run.exec_concat, completes_largeRest.1, finishUpload_uploadFailed]
    exact completes_largeRest.2
  have hlen : largeUpload.data.length = 10240 := List.length_replicate
  have hdata := (reassembly_exact default largeUpload 0 (fun _ => 0) [largeFirst, largeRest]
    [largeFirst] [] largeRest cut_large rfl hpre hdone).2 hfailed
  rw [hlen] at hdata
  exact hdata

end Httpd
