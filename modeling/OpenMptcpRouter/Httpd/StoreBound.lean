/-
Where an upload is stored.

Every byte stored through `webfailsafe_data_pointer` should lie between
`CONFIG_LOADADDR` and U-Boot itself.  The only limit on the amount stored is the
size check in `httpd_findandstore_firstchunk`, and the small file rule skips that
check: with `small_file_flag` set, body segments are stored before any data start
has been found, until the `Content-Length` of the request is reached.

The flag survives an aborted request, so the request that is stored unchecked
need not be a small one.  As long as it is (`OwnSmallFile`), every store of every
run stays below U-Boot (`stores_inWindow`); `stores_leave_window` is a run that
does not.
-/
import OpenMptcpRouter.Httpd.Invariant
import OpenMptcpRouter.Httpd.Multipart

namespace Httpd

open CString Memory Search

/-- Every byte of the store lies in `[CONFIG_LOADADDR, CONFIG_SYS_TEXT_BASE)`. -/
def InWindow (st : ℕ × ℕ) : Prop :=
  ∀ i < st.2, loadaddr ≤ (st.1 + i) % ramSize ∧ (st.1 + i) % ramSize < sysTextBase

/-- All stores of the call stay below U-Boot. -/
def StoresInWindow (fs : Fs) (s : State) (e : Event) : Prop :=
  ∀ st ∈ (httpdAppcall fs s e).2.stores, InWindow st

/-- A segment stored by the small file rule, with no data start found, belongs to a
request that is a small file itself. -/
def OwnSmallFile (s : State) (e : Event) : Prop :=
  TakesBody s e → s.uploadFailed = false → s.smallFileFlag = true → s.dataStartFound = false →
    s.uploadTotal < smallFileSize

instance (s : State) (e : Event) : Decidable (OwnSmallFile s e) := by
  unfold OwnSmallFile; infer_instance

/-- The bound the stores of an upload in progress obey. -/
def Bounded (s : State) : Prop :=
  s.state = .uploadRequest → s.uploadFailed = false →
    s.upload < 2 ^ 16 ∨ s.upload < s.uploadTotal + (s.boundaryValue.getD []).length + 6

theorem inWindow_of_le {p n : ℕ} (hp : loadaddr ≤ p) (hn : p + n ≤ sysTextBase) :
    InWindow (p, n) := by
  intro i hi
  simp only [ramSize, sysTextBase] at *
  omega

theorem bounded_initial (ram : Ram) : Bounded (initial ram) :=
  fun h => absurd h (by simp [initial])

theorem bounded_of_state {s : State} (h : s.state ≠ .uploadRequest) : Bounded s :=
  fun hs => absurd hs h

/-- The first chunk is at most a segment long. -/
theorem bounded_firstchunk {s : State} {e : Event} (h : Wf s) (hu : s.upload = 0) :
    Bounded { (httpdFindandstoreFirstchunk s e).1 with
      dataStartFound := (httpdFindandstoreFirstchunk s e).2.1 } := by
  rcases firstchunk_cases s e with ⟨t, ht⟩ | ⟨bv, start, t, stop, hb, hstart, _, hstop, _, heq⟩
  · rw [ht]
    exact fun _ _ => Or.inl (by simp [hu])
  · have hok := h.boundary_ok bv hb
    have hle := firstchunk_stop_le hok.1 hok.2.1 hstart hstop
    have hseg := e.seg_lt
    rw [heq]
    refine fun _ _ => Or.inl ?_
    show (storeFirstchunk { s with upgradeType := t } e bv start (stop + 4)).upload < 2 ^ 16
    rw [storeFirstchunk_upload hle.2]
    omega

/-- What the check and the small file rule leave as the length of the upload. -/
theorem uploadTotal_le {s : State} {e : Event} (h : Wf s) (hown : OwnSmallFile s e)
    (hbody : TakesBody s e) (hf : s.uploadFailed = false)
    (hs : s.smallFileFlag = true ∨ s.dataStartFound = true) :
    s.uploadTotal ≤ uploadFwSizeInBytes := by
  rcases hd : s.dataStartFound with _ | _
  · rw [hd] at hs
    have := hown hbody hf (by simpa using hs) hd
    simp only [smallFileSize, uploadFwSizeInBytes] at *
    omega
  · exact h.checked hbody.2.2.1 hf hd

theorem bounded_storeBody {s : State} {e : Event} (h : Wf s) (hown : OwnSmallFile s e)
    (hbody : TakesBody s e) (hs : s.smallFileFlag = true ∨ s.dataStartFound = true)
    (hc : bodyComplete (storeBody s e) = false) : Bounded (storeBody s e) := by
  have hlen := boundary_length_lt h
  rw [bodyComplete, decide_eq_false_iff_not] at hc
  rw [Bounded, storeBody_uploadFailed]
  intro _ hf
  have htotal := uploadTotal_le h hown hbody hf hs
  rw [storeBody_uploadTotal, storeBody_boundaryValue] at hc ⊢
  simp only [u32, uploadFwSizeInBytes] at hc htotal
  omega

theorem bounded_step (fs : Fs) {s : State} {e : Event} (h : Wf s) (hb : Bounded s)
    (hown : OwnSmallFile s e) : Bounded (httpdAppcall fs s e).1 := by
  have hexit := exit_of_appcall fs s e
  generalize httpdAppcall fs s e = r at hexit ⊢
  cases hexit with
  | foreign => exact hb
  | closed => exact bounded_of_state (by simp [httpdStateReset])
  | tick => exact hb
  | get => exact bounded_of_state (by simp [servePage])
  | refuse => exact bounded_of_state (by simp [resetAbort, httpdStateReset])
  | refusePost => exact bounded_of_state (by simp [resetAbort, httpdStateReset])
  | post hreq n bv _ _ hbv =>
    exact bounded_firstchunk (wf_beginUpload h hreq.2.2 (boundary_spec hbv)) (h.idle hreq.2.2)
  | lastAcked => exact bounded_of_state (by simp [httpdStateReset])
  | nextChunk hack => exact bounded_of_state (by simp [hack.2.2])
  | resend => exact hb
  | idle => exact hb
  | firstFound hbody hs hd hf =>
    have hfirst := bounded_firstchunk (e := e) h (h.fresh hbody.2.2.1 hd hs).1
    rwa [hf] at hfirst
  | firstLost => exact bounded_of_state (by simp [httpdStateReset])
  | stored hbody hs hc => exact bounded_storeBody h hown hbody hs hc
  | finished => exact bounded_of_state (by simp [finishUpload, servePage])

/-- The first chunk is stored at `CONFIG_LOADADDR`. -/
theorem firstchunk_inWindow {s : State} {e : Event} (h : Wf s) (hp : s.dataPointer = loadaddr) :
    ∀ st ∈ (httpdFindandstoreFirstchunk s e).2.2, InWindow st := by
  rcases firstchunk_cases s e with ⟨t, ht⟩ | ⟨bv, start, t, stop, hb, hstart, _, hstop, _, heq⟩
  · rw [ht]
    simp
  · have hok := h.boundary_ok bv hb
    have hle := firstchunk_stop_le hok.1 hok.2.1 hstart hstop
    have hseg := e.seg_lt
    intro st hst
    rw [heq] at hst
    simp only [List.mem_singleton] at hst
    subst hst
    rw [storeFirstchunk_upload hle.2, hp]
    refine inWindow_of_le le_rfl ?_
    simp only [loadaddr, sysTextBase]
    omega

/-- A body segment is stored right behind the bytes counted so far. -/
theorem storeBody_inWindow {s : State} {e : Event} (h : Wf s) (hb : Bounded s)
    (hown : OwnSmallFile s e) (hbody : TakesBody s e)
    (hs : s.smallFileFlag = true ∨ s.dataStartFound = true) :
    ∀ st ∈ (if s.uploadFailed then [] else [(s.dataPointer, e.seg.length)]), InWindow st := by
  rcases hf : s.uploadFailed with _ | _
  · intro st hst
    simp only [Bool.false_eq_true, if_false, List.mem_singleton] at hst
    subst hst
    have htotal := uploadTotal_le h hown hbody hf hs
    have hlen := boundary_length_lt h
    have hupload := hb hbody.2.2.1 hf
    have hseg := e.seg_lt
    have hp := h.pointer hbody.2.2.1 hf
    simp only [loadaddr, uploadFwSizeInBytes] at hp htotal
    refine inWindow_of_le ?_ ?_
    · simp only [loadaddr]
      omega
    · simp only [sysTextBase]
      omega
  · simp

theorem stores_step (fs : Fs) {s : State} {e : Event} (h : Wf s) (hb : Bounded s)
    (hown : OwnSmallFile s e) : StoresInWindow fs s e := by
  rw [StoresInWindow]
  have hexit := exit_of_appcall fs s e
  generalize httpdAppcall fs s e = r at hexit ⊢
  cases hexit with
  | post hreq n bv _ _ hbv =>
    have hbegin := wf_beginUpload (n := n) h hreq.2.2 (boundary_spec hbv)
    intro st hst
    rcases List.mem_cons.mp hst with rfl | hst
    · exact inWindow_of_le le_rfl (by decide)
    · exact firstchunk_inWindow hbegin rfl st hst
  | firstFound hbody hs hd =>
    exact firstchunk_inWindow h (h.fresh hbody.2.2.1 hd hs).2
  | firstLost hbody hs hd =>
    exact firstchunk_inWindow h (h.fresh hbody.2.2.1 hd hs).2
  | stored hbody hs => exact storeBody_inWindow h hb hown hbody hs
  | finished hbody hs => exact storeBody_inWindow h hb hown hbody hs
  | _ => simp [resetAbort]

/-- **Uploads stay below U-Boot.**  In every run from the initial globals in which
the small file rule stores only small files, every store of every call lies in
`[CONFIG_LOADADDR, CONFIG_SYS_TEXT_BASE)`. -/
theorem stores_inWindow (fs : Fs) (ram : Ram) (es : List Event)
    (h : Run.AllSteps (httpdAppcall fs) OwnSmallFile (initial ram) es) :
    Run.AllSteps (httpdAppcall fs) (StoresInWindow fs) (initial ram) es :=
  Run.allSteps_of_invariant (fun s => Wf s ∧ Bounded s)
    (fun _ e hs hown => ⟨wf_step fs e hs.1, bounded_step fs hs.1 hs.2 hown⟩)
    (fun _ _ hs hown => stores_step fs hs.1 hs.2 hown)
    ⟨wf_initial ram, bounded_initial ram⟩ h

/-! ### The bound is lost when the small file flag is left over -/

/-- A small upload whose headers come alone, and its first body segment. -/
def smallRun : List Event :=
  [newData 0 (postHead "5000") postHead_lt, newData 0 (ascii "--b\r\n") (by decide)]

theorem stores_inWindow_smallRun :
    Run.AllSteps (httpdAppcall default) OwnSmallFile (initial fun _ => 0) smallRun ∧
      Run.AllSteps (httpdAppcall default) (StoresInWindow default) (initial fun _ => 0) smallRun := by
  have hown : Run.AllSteps (httpdAppcall default) OwnSmallFile (initial fun _ => 0) smallRun := by
    decide +kernel
  exact ⟨hown, stores_inWindow default (fun _ => 0) smallRun hown⟩

/-- The server taking the same body segment over and over, with the small file flag
set and a length that is not reached. -/
structure Filling (e : Event) (total k : ℕ) (s : State) : Prop where
  takes : TakesBody s e
  small : s.smallFileFlag = true
  ok : s.uploadFailed = false
  total_eq : s.uploadTotal = total
  upload_eq : s.upload = k * e.seg.length

theorem filling_step (fs : Fs) {e : Event} {total k : ℕ} {s : State} (h : Wf s)
    (hs : Filling e total k s) (htotal : total < 2 ^ 31) (hk : (k + 1) * e.seg.length < total) :
    Filling e total (k + 1) (httpdAppcall fs s e).1 := by
  have hcount : s.upload + e.seg.length = (k + 1) * e.seg.length := by
    rw [hs.upload_eq, Nat.add_mul, Nat.one_mul]
  have hbody : handleBody fs s e = (storeBody s e, { stores := [(s.dataPointer, e.seg.length)] }) := by
    have hlen := boundary_length_lt h
    have hc : bodyComplete (storeBody s e) = false := by
      simp only [bodyComplete, storeBody, hs.ok, hs.total_eq, u32, Bool.false_eq_true, if_false,
        decide_eq_false_iff_not]
      omega
    simp [handleBody, hs.takes.2.2.1, hs.small, hs.ok, hc]
  have hcall : (httpdAppcall fs s e).1 = storeBody s e := by
    obtain ⟨⟨hport, hclose, habort, htime, hpoll, hconn⟩, hnew, hstate, hack, hrex⟩ := hs.takes
    simp [httpdAppcall, hport, hclose, habort, htime, hpoll, hconn, hnew, hstate, hack, hrex, hbody]
  rw [hcall, storeBody]
  simp only [hs.ok, Bool.false_eq_true, if_false]
  refine ⟨hs.takes, hs.small, rfl, hs.total_eq, ?_⟩
  simp only [u32]
  omega

/-- After `k` such segments `k` segments have been stored. -/
theorem filling_serve (fs : Fs) {e : Event} {total : ℕ} {s : State} (h : Wf s)
    (hs : Filling e total 0 s) (htotal : total < 2 ^ 31) :
    ∀ k, k * e.seg.length < total → Filling e total k (serve fs s (List.replicate k e))
  | 0, _ => hs
  | k + 1, hk => by
    have hle : k * e.seg.length ≤ (k + 1) * e.seg.length := Nat.mul_le_mul_right _ (Nat.le_succ k)
    rw [serve, List.replicate_succ', Run.exec_concat]
    exact filling_step fs (wf_serve fs _ h) (filling_serve fs h hs htotal k (by omega)) htotal hk

/-- Such a segment is stored. -/
theorem mem_stores_of_filling (fs : Fs) {e : Event} {total k : ℕ} {s : State}
    (hs : Filling e total k s) : (s.dataPointer, e.seg.length) ∈ (httpdAppcall fs s e).2.stores := by
  have hexit := exit_of_appcall fs s e
  have hsmall := hs.small
  have hstate := hs.takes.2.2.1
  generalize httpdAppcall fs s e = r at hexit ⊢
  cases hexit with
  | stored => simp [hs.ok]
  | finished => simp [hs.ok]
  -- all other exits are those of other states or other events
  | firstFound _ hns => simp [hns] at hsmall
  | firstLost _ hns => simp [hns] at hsmall
  | foreign h => exact absurd hs.takes.1.1 h
  | closed h => exact absurd hs.takes.1 h
  | tick h => exact absurd hs.takes.1 h
  | resend _ h => exact absurd (hstate.symm.trans h) (by simp)
  | idle _ h => exact absurd hs.takes h
  | get h => exact absurd (hstate.symm.trans h.2.2) (by simp)
  | refuse h => exact absurd (hstate.symm.trans h.2.2) (by simp)
  | refusePost h => exact absurd (hstate.symm.trans h.2.2) (by simp)
  | post h => exact absurd (hstate.symm.trans h.2.2) (by simp)
  | lastAcked h => exact absurd (hstate.symm.trans h.2.2) (by simp)
  | nextChunk h => exact absurd (hstate.symm.trans h.2.2) (by simp)

/-- A small upload that is closed after its headers, and the headers of a large one. -/
def leftoverHead : List Event :=
  [newData 0 (postHead "5000") postHead_lt, closed 0,
    newData 1 (postHead "2147483647") (by decide)]

/-- A full segment of zeros. -/
def zeroSegment : Event :=
  newData 1 (List.replicate 1446 0) (by rw [List.length_replicate]; omega)

theorem filling_leftoverHead :
    Filling zeroSegment 2147483647 0 (serve default (initial fun _ => 0) leftoverHead) := by
  constructor
  · decide +kernel
  · decide +kernel
  · decide +kernel
  · decide +kernel
  · rw [Nat.zero_mul]
    decide +kernel

/-- **Stores leave the window.**  The small file flag of a closed request lets a later, large
request be stored unchecked, and its segment number 71791 reaches U-Boot. -/
theorem stores_leave_window :
    ¬ Run.AllSteps (httpdAppcall default) (StoresInWindow default) (initial fun _ => 0)
      (leftoverHead ++ List.replicate 71791 zeroSegment) := by
  intro hall
  have hlen : zeroSegment.seg.length = 1446 := List.length_replicate
  have hwf := wf_serve default leftoverHead (wf_initial fun _ => 0)
  have hfill := filling_serve default hwf filling_leftoverHead (by omega) 71790 (by omega)
  have hlast : StoresInWindow default
      (serve default (serve default (initial fun _ => 0) leftoverHead)
        (List.replicate 71790 zeroSegment)) zeroSegment := by
    rw [show 71791 = 71790 + 1 from rfl, List.replicate_succ', Run.allSteps_append,
      Run.allSteps_append] at hall
    exact hall.2.2.1
  generalize hs : serve default (serve default (initial fun _ => 0) leftoverHead)
    (List.replicate 71790 zeroSegment) = s at hfill hlast
  have hp := (hs ▸ wf_serve default _ hwf : Wf s).pointer hfill.takes.2.2.1 hfill.ok
  rw [hfill.upload_eq, hlen] at hp
  have hstore := mem_stores_of_filling default hfill
  rw [hlen] at hstore
  have hbyte := (hlast _ hstore 684 (by simp)).2
  rw [hp] at hbyte
  simp [loadaddr, ramSize, sysTextBase] at hbyte

end Httpd
