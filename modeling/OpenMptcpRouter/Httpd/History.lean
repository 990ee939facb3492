/-
What an earlier request leaves behind.

When a connection ends, `httpd_state_reset` clears the request state but not
`webfailsafe_post_done`, `webfailsafe_upload_failed`, `small_file_flag` and
`webfailsafe_upgrade_type`, and the RAM keeps the bytes of the request.  What comes
next should not depend on any of this.

A server state is compared with the same state over other leftovers, that is, other
RAM, type, size and store pointer (`withLeftover`).  `Masked` says when the
difference cannot be seen, and `masked_step` that one call keeps it so.

* `history_independent` — if no flag is left over, then whatever comes next is
  answered as from the initial globals, provided that an upload that completes had
  its data start found (or the type left over is the initial one) and that the
  manifest check reads uploaded bytes only;
* `history_shows` — a run in which `webfailsafe_post_done` is left over, and the next
  page that is fetched makes the server ready for the upgrade.
-/
import OpenMptcpRouter.Httpd.Commit

namespace Httpd

open CString Memory Search Fwtool

/-! ### Observations -/

/-- What a call shows: the answer, and the upgrade it releases with its bytes. -/
structure Observation where
  reply : Reply
  send : Option (List UInt8)
  upgrade : Option (UpgradeType × ℕ × List UInt8)
  deriving DecidableEq

/-- The call with what it shows. -/
def observedStep (fs : Fs) (s : State) (e : Event) : State × Observation :=
  let r := httpdAppcall fs s e
  (r.1,
    { reply := r.2.reply
      send := r.2.send
      upgrade :=
        if !s.readyForUpgrade && r.1.readyForUpgrade then
          some (r.1.upgradeType, r.1.netBootFileXferSize,
            slice ramSize r.1.ram loadaddr r.1.netBootFileXferSize)
        else none })

/-- The event ends the connection or the poll limit does: `httpd_state_reset` is run. -/
def Resets (s : State) (e : Event) : Prop :=
  e.lport = 80 ∧ (e.flags.close = true ∨ e.flags.abort = true ∨ e.flags.timedout = true ∨
    e.flags.poll = true ∧ 100 ≤ s.count)

theorem appcall_resets (fs : Fs) {s : State} {e : Event} (h : Resets s e) :
    (httpdAppcall fs s e).1 = httpdStateReset s := by
  obtain ⟨hport, h⟩ := h
  rw [httpdAppcall, if_pos hport]
  by_cases hclose : e.flags.close = true
  · rw [if_pos hclose]
  rw [if_neg hclose]
  by_cases habort : (e.flags.abort || e.flags.timedout) = true
  · rw [if_pos habort]
    rfl
  rw [if_neg habort]
  simp only [Bool.or_eq_true, not_or] at habort
  simp only [hclose, habort.1, habort.2, false_or, Bool.false_eq_true] at h
  rw [if_pos h.1, if_pos h.2]
  rfl

/-! ### Leftovers -/

/-- What a request leaves behind besides the flags. -/
structure Leftover where
  ram : Ram
  upgradeType : UpgradeType
  size : ℕ
  dataPointer : ℕ

/-- The state over other leftovers. -/
def State.withLeftover (s : State) (l : Leftover) : State :=
  { s with
    ram := l.ram
    upgradeType := l.upgradeType
    netBootFileXferSize := l.size
    dataPointer := l.dataPointer }

/-- The leftovers of a state. -/
def State.leftover (s : State) : Leftover :=
  ⟨s.ram, s.upgradeType, s.netBootFileXferSize, s.dataPointer⟩

/-- The first `k` bytes from `CONFIG_LOADADDR` on are the same. -/
def AgreeOn (k : ℕ) (m m' : Ram) : Prop :=
  ∀ i < k, m ((loadaddr + i) % ramSize) = m' ((loadaddr + i) % ramSize)

/-- The leftovers `l` in place of those of `s` cannot be seen.  The type may differ
only if the one left over, `t₀`, is not the initial one, and only until an upload
has set it. -/
structure Masked (t₀ : UpgradeType) (s : State) (l : Leftover) : Prop where
  type : s.upgradeType = l.upgradeType ∨
    t₀ ≠ .firmware ∧ s.dataStartFound = false ∧ s.postDone = false ∧ s.uploadFailed = false
  pointer : s.state = .uploadRequest → s.dataPointer = l.dataPointer
  agree : s.state = .uploadRequest → s.uploadFailed = false → AgreeOn s.upload s.ram l.ram
  pending : s.postDone = true → s.netBootFileXferSize = l.size ∧
    (s.uploadFailed = false → AgreeOn s.netBootFileXferSize s.ram l.ram)

/-- An upload that completes had its data start found, or else the type left over is
the initial one and all its bytes have come; and the manifest check, if it is made,
reads uploaded bytes only. -/
def ChecksOwn (t₀ : UpgradeType) (s : State) (e : Event) : Prop :=
  TakesBody s e → (s.smallFileFlag = true ∨ s.dataStartFound = true) →
    bodyComplete (storeBody s e) = true → s.uploadFailed = false →
      (s.dataStartFound = true ∨
        t₀ = .firmware ∧ (storeBody s e).uploadTotal ≤ (storeBody s e).upload) ∧
      (s.upgradeType = .firmware →
        ReadsInside (fun off => (storeBody s e).ram (u32 (loadaddr + off)))
          (storeBody s e).uploadTotal (storeBody s e).upload)

section Agree

variable {k p : ℕ} {m m' : Ram} {xs : List UInt8}

theorem AgreeOn.mono {j : ℕ} (h : AgreeOn k m m') (hj : j ≤ k) : AgreeOn j m m' :=
  fun i hi => h i (by omega)

theorem AgreeOn.store (h : AgreeOn k m m') :
    AgreeOn k (store ramSize m p xs) (store ramSize m' p xs) :=
  fun i hi => store_congr (h i hi)

theorem AgreeOn.fill {c : UInt8} {n : ℕ} (h : AgreeOn k m m') :
    AgreeOn k (fill ramSize m p c n) (fill ramSize m' p c n) :=
  fun i hi => fill_congr (h i hi)

/-- Bytes stored right behind those that agree. -/
theorem AgreeOn.append (h : AgreeOn k m m') (hp : p = (loadaddr + k) % ramSize)
    (hx : xs.length < 2 ^ 16) :
    AgreeOn (k + xs.length) (Memory.store ramSize m p xs) (Memory.store ramSize m' p xs) := by
  intro i hi
  by_cases hik : i < k
  · exact h.store i hik
  · obtain ⟨j, rfl⟩ : ∃ j, i = k + j := ⟨i - k, by omega⟩
    rw [hp, show loadaddr + (k + j) = loadaddr + k + j by omega]
    refine store_congr_of_mem (by decide) (by omega) ?_
    simp only [ramSize]
    omega

theorem AgreeOn.slice (h : AgreeOn k m m') :
    slice ramSize m loadaddr k = slice ramSize m' loadaddr k :=
  slice_congr h

end Agree

/-! ### One call over other leftovers -/

section Step

variable {t₀ : UpgradeType} {s : State} {l : Leftover} {e : Event} (fs : Fs)

/-- The two results of a call: same output, and states that differ in what cannot be
seen. -/
def Same (t₀ : UpgradeType) (r r' : State × Out) : Prop :=
  r'.2 = r.2 ∧ ∃ l, r'.1 = r.1.withLeftover l ∧ Masked t₀ r.1 l

/-- Where the request state is cleared or a page is set up, nothing becomes visible. -/
theorem masked_quiet {s' : State} (h : Masked t₀ s l) (hs' : s'.state ≠ .uploadRequest)
    (hfound : s'.dataStartFound = true → s.dataStartFound = true)
    (hpd : s'.postDone = s.postDone) (hfail : s'.uploadFailed = s.uploadFailed)
    (hram : s'.ram = s.ram) (htype : s'.upgradeType = s.upgradeType)
    (hsize : s'.netBootFileXferSize = s.netBootFileXferSize) : Masked t₀ s' l := by
  refine ⟨?_, fun hs => absurd hs hs', fun hs => absurd hs hs', ?_⟩
  · rw [htype, hpd, hfail]
    refine h.type.imp_right fun ht => ⟨ht.1, ?_, ht.2.2⟩
    by_contra hf
    exact absurd ((hfound (by simpa using hf)).symm.trans ht.2.1) (by simp)
  · rw [hpd, hfail, hram, hsize]
    exact h.pending

theorem same_resetAbort (h : Masked t₀ s l) :
    Same t₀ (resetAbort s) (resetAbort (s.withLeftover l)) :=
  ⟨rfl, l, rfl, masked_quiet h (by simp [resetAbort, httpdStateReset])
    (by simp [resetAbort, httpdStateReset]) rfl rfl rfl rfl rfl⟩

theorem same_handleGet (h : Masked t₀ s l) :
    Same t₀ (handleGet fs s e) (handleGet fs (s.withLeftover l) e) := by
  rw [handleGet, handleGet]
  split
  · exact same_resetAbort h
  · exact ⟨rfl, l, rfl, masked_quiet h (by simp [servePage]) id rfl rfl rfl rfl rfl⟩

theorem commit_withLeftover : commit (s.withLeftover l) = (commit s).withLeftover l := by
  rw [commit, commit]
  split <;> rename_i hpd
  · rw [if_pos (show s.postDone = true from hpd)]
    rfl
  · rw [if_neg (show ¬ s.postDone = true from hpd)]

theorem same_handleAcked (h : Masked t₀ s l) :
    Same t₀ (handleAcked s e) (handleAcked (s.withLeftover l) e) := by
  rw [handleAcked, handleAcked]
  by_cases hs : s.state = .fileRequest
  swap
  · rw [if_neg hs, if_neg (show (s.withLeftover l).state ≠ .fileRequest from hs)]
    exact ⟨rfl, l, rfl, h⟩
  rw [if_pos hs, if_pos (show (s.withLeftover l).state = .fileRequest from hs)]
  by_cases hm : s.upload ≤ e.mss
  · rw [if_pos hm, if_pos (show (s.withLeftover l).upload ≤ e.mss from hm), commit_withLeftover]
    refine ⟨rfl, l, rfl, ?_⟩
    -- after the commit nothing is pending
    have hdone : (commit s).postDone = false := by
      rw [commit]
      split
      · rfl
      · rename_i hpd
        simpa using hpd
    refine ⟨?_, fun hs' => absurd hs' (by simp [httpdStateReset]),
      fun hs' => absurd hs' (by simp [httpdStateReset]),
      fun hd => absurd (hd.symm.trans hdone) (by simp)⟩
    have htype : (commit s).upgradeType = s.upgradeType := by
      rw [commit]
      split <;> rfl
    refine (show (commit s).upgradeType = l.upgradeType ∨ _ from ?_)
    rw [htype]
    refine h.type.imp_right fun ht => ⟨ht.1, rfl, hdone, ?_⟩
    show (commit s).uploadFailed = false
    rw [commit, if_neg (by simp [ht.2.2.1])]
    exact ht.2.2.2
  · rw [if_neg hm, if_neg (show ¬ (s.withLeftover l).upload ≤ e.mss from hm)]
    refine ⟨rfl, l, rfl, masked_quiet h ?_ id rfl rfl rfl rfl rfl⟩
    simp [hs]

/-- The search for the data start. -/
theorem same_firstchunk (h : Masked t₀ s l) (hw : Wf s) (hs : s.state = .uploadRequest)
    (hp : s.dataPointer = loadaddr) :
    (httpdFindandstoreFirstchunk (s.withLeftover l) e).2 = (httpdFindandstoreFirstchunk s e).2 ∧
      ∃ l', (httpdFindandstoreFirstchunk (s.withLeftover l) e).1
          = (httpdFindandstoreFirstchunk s e).1.withLeftover l' ∧
        Masked t₀ { (httpdFindandstoreFirstchunk s e).1 with
          dataStartFound := (httpdFindandstoreFirstchunk s e).2.1 } l' := by
  have hl : l.dataPointer = loadaddr := (h.pointer hs).symm.trans hp
  have hagree : AgreeOn 0 s.ram l.ram := fun i hi => absurd hi (Nat.not_lt_zero i)
  rw [firstchunk_eq, firstchunk_eq, show (s.withLeftover l).boundaryValue = s.boundaryValue from rfl]
  rcases hsearch : searchFirstchunk s.boundaryValue e with _ | ⟨t, _ | ⟨bv, start, stop⟩⟩
  · refine ⟨rfl, l, rfl, ⟨h.type.imp_right fun ht => ⟨ht.1, rfl, ht.2.2⟩, h.pointer, h.agree,
      h.pending⟩⟩
  · refine ⟨rfl, { l with upgradeType := t }, rfl, ⟨Or.inl rfl, h.pointer, h.agree, h.pending⟩⟩
  · obtain ⟨hbv, hstart, _, hstop, _⟩ := searchFirstchunk_eq_some hsearch
    have hok := hw.boundary_ok bv hbv
    have hle := firstchunk_stop_le hok.1 hok.2.1 hstart hstop
    have hseg := e.seg_lt
    -- both calls store the rest of the segment, at the start of the window
    have hlen : ((e.appdataZ.drop (stop + 4)).take (e.seg.length - (stop + 4))).length
        = e.seg.length - (stop + 4) := by
      rw [List.length_take, List.length_drop, Event.appdataZ, List.length_append]
      omega
    refine ⟨?_, (storeFirstchunk { s.withLeftover l with upgradeType := t } e bv start
      (stop + 4)).leftover, rfl, ⟨Or.inl rfl, fun _ => ?_, fun _ _ => ?_, fun hpd => ?_⟩⟩
    · show (true, [(l.dataPointer, _)]) = (true, [(s.dataPointer, _)])
      rw [hl, hp]
      rfl
    · show (s.dataPointer + _) % ramSize = (l.dataPointer + _) % ramSize
      rw [hl, hp]
    · show AgreeOn (storeFirstchunk { s with upgradeType := t } e bv start (stop + 4)).upload
        (storeFirstchunk { s with upgradeType := t } e bv start (stop + 4)).ram
        (storeFirstchunk { s.withLeftover l with upgradeType := t } e bv start (stop + 4)).ram
      rw [storeFirstchunk_upload hle.2, storeFirstchunk_ram hle.2, storeFirstchunk_ram hle.2]
      show AgreeOn _ (store ramSize s.ram s.dataPointer _) (store ramSize l.ram l.dataPointer _)
      have happend := hagree.append (p := loadaddr) (by decide)
        (by rw [hlen]; omega :
          ((e.appdataZ.drop (stop + 4)).take (e.seg.length - (stop + 4))).length < 2 ^ 16)
      rw [hlen, Nat.zero_add] at happend
      rw [hl, hp]
      exact happend
    · refine ⟨(h.pending hpd).1, fun hf => ?_⟩
      have hok' : s.uploadFailed = false := by
        simp only [storeFirstchunk, Bool.or_eq_false_iff] at hf
        exact hf.1
      show AgreeOn s.netBootFileXferSize
        (storeFirstchunk { s with upgradeType := t } e bv start (stop + 4)).ram
        (storeFirstchunk { s.withLeftover l with upgradeType := t } e bv start (stop + 4)).ram
      rw [storeFirstchunk_ram hle.2, storeFirstchunk_ram hle.2]
      show AgreeOn _ (store ramSize s.ram s.dataPointer _) (store ramSize l.ram l.dataPointer _)
      rw [hl, hp]
      exact ((h.pending hpd).2 hok').store

/-- A request with a file to upload. -/
theorem same_handlePost (h : Masked t₀ s l) (hw : Wf s) (hs : s.state = .none) :
    Same t₀ (handlePost s e) (handlePost (s.withLeftover l) e) := by
  rw [handlePost, handlePost]
  rcases contentLength e.appdataZ with _ | n
  · exact same_resetAbort h
  have hsmall : Masked t₀
      { s with smallFileFlag := s.smallFileFlag || decide (n < smallFileSize) } l :=
    ⟨h.type, h.pointer, h.agree, h.pending⟩
  rcases hb : boundary e.appdataZ with _ | bv
  · exact same_resetAbort hsmall
  by_cases hm : e.malloc = true
  swap
  · simp only [hm]
    exact same_resetAbort hsmall
  simp only [hm, if_true]
  have hbegin : Masked t₀ (beginUpload s n bv)
      { l with ram := fill ramSize l.ram loadaddr 0xFF maxUbootSize, dataPointer := loadaddr } := by
    refine ⟨h.type, fun _ => rfl, fun _ _ => ?_, fun hpd => ⟨(h.pending hpd).1, fun hf => ?_⟩⟩
    · show AgreeOn s.upload _ _
      rw [hw.idle hs]
      exact fun i hi => absurd hi (Nat.not_lt_zero i)
    · exact ((h.pending hpd).2 hf).fill
  obtain ⟨hout, l', hstate, hmask⟩ := same_firstchunk (e := e) hbegin
    (wf_beginUpload hw hs (boundary_spec hb)) rfl rfl
  have hleft : beginUpload (s.withLeftover l) n bv = (beginUpload s n bv).withLeftover
      { l with ram := fill ramSize l.ram loadaddr 0xFF maxUbootSize, dataPointer := loadaddr } := rfl
  rw [hleft]
  refine ⟨?_, l', ?_, hmask⟩
  · rw [hout]
  · rw [hout, hstate]
    rfl

/-- A segment added to the data. -/
theorem same_storeBody (h : Masked t₀ s l) (hw : Wf s) (hs : s.state = .uploadRequest) :
    storeBody (s.withLeftover l) e
        = (storeBody s e).withLeftover (storeBody (s.withLeftover l) e).leftover ∧
      Masked t₀ (storeBody s e) (storeBody (s.withLeftover l) e).leftover := by
  by_cases hf : s.uploadFailed = true
  · -- a failed upload stores nothing
    have hbody : storeBody s e = { s with upload := u32 (s.upload + e.seg.length) } := by
      rw [storeBody, if_pos hf]
    have hbody' : storeBody (s.withLeftover l) e
        = { s.withLeftover l with upload := u32 (s.upload + e.seg.length) } := by
      rw [storeBody, if_pos (show (s.withLeftover l).uploadFailed = true from hf)]
      rfl
    rw [hbody, hbody']
    refine ⟨rfl, ⟨h.type, h.pointer, fun _ hnf => ?_, h.pending⟩⟩
    exact absurd (hf.symm.trans hnf) (by simp)
  simp only [Bool.not_eq_true] at hf
  have hbody : storeBody s e = { s with
      upload := u32 (s.upload + e.seg.length)
      ram := store ramSize s.ram s.dataPointer e.seg
      dataPointer := (s.dataPointer + e.seg.length) % ramSize } := by
    rw [storeBody, if_neg (by simp [hf])]
  have hbody' : storeBody (s.withLeftover l) e = { s.withLeftover l with
      upload := u32 (s.upload + e.seg.length)
      ram := store ramSize l.ram s.dataPointer e.seg
      dataPointer := (s.dataPointer + e.seg.length) % ramSize } := by
    rw [storeBody, if_neg (by simp [State.withLeftover, hf]), h.pointer hs]
    rfl
  rw [hbody, hbody']
  refine ⟨rfl, ⟨h.type, fun _ => rfl, fun _ _ => ?_, fun hpd => ⟨(h.pending hpd).1, fun _ => ?_⟩⟩⟩
  · have happend := (h.agree hs hf).append (p := s.dataPointer) (hw.pointer hs hf) e.seg_lt
    refine happend.mono ?_
    show u32 ((s.upload : ℤ) + e.seg.length) ≤ s.upload + e.seg.length
    rw [u32]
    omega
  · exact ((h.pending hpd).2 hf).store

/-- The length of an upload that completes has been stored. -/
theorem uploadTotal_le_upload (hw : Wf s) (hs : s.state = .uploadRequest)
    (hf : s.uploadFailed = false) (hd : s.dataStartFound = true) (hc : bodyComplete s = true) :
    s.uploadTotal ≤ s.upload := by
  have htotal := hw.checked hs hf hd
  have hlen := boundary_length_lt hw
  rw [bodyComplete, decide_eq_true_eq] at hc
  simp only [u32, uploadFwSizeInBytes] at hc htotal
  omega

/-- The manifest check sees only the bytes it reads. -/
theorem validate_congr {k n : ℕ} {m m' : Ram} (h : AgreeOn k m m')
    (hread : ReadsInside (fun off => m (u32 (loadaddr + off))) n k) :
    validate m n = validate m' n := by
  rw [validate, validate]
  refine fwtoolValidateManifest_congr (fun off hoff hlt => ?_) hread
  have haddr : u32 ((loadaddr : ℤ) + off) = (loadaddr + off.toNat) % ramSize := by
    rw [u32, ramSize]
    omega
  rw [haddr]
  exact h off.toNat (by omega)

/-- The end of an upload. -/
theorem same_finishUpload (h : Masked t₀ s l) (hs : s.state = .uploadRequest)
    (htype : s.upgradeType = l.upgradeType)
    (hall : s.uploadFailed = false → s.uploadTotal ≤ s.upload)
    (hread : s.uploadFailed = false → s.upgradeType = .firmware →
      ReadsInside (fun off => s.ram (u32 (loadaddr + off))) s.uploadTotal s.upload) :
    ∃ l', finishUpload fs (s.withLeftover l) = (finishUpload fs s).withLeftover l' ∧
      Masked t₀ (finishUpload fs s) l' := by
  have hfailed : failedAtEnd (s.withLeftover l) = failedAtEnd s := by
    rw [failedAtEnd, failedAtEnd]
    by_cases hf : s.uploadFailed = true
    · rw [hf, show (s.withLeftover l).uploadFailed = true from hf, Bool.true_or, Bool.true_or]
    simp only [Bool.not_eq_true] at hf
    rw [hf, show (s.withLeftover l).uploadFailed = false from hf,
      show (s.withLeftover l).upgradeType = s.upgradeType from htype.symm]
    by_cases hfw : s.upgradeType = .firmware
    · have hval : validate (s.withLeftover l).ram (s.withLeftover l).uploadTotal
          = validate s.ram s.uploadTotal := (validate_congr (h.agree hs hf) (hread hf hfw)).symm
      rw [hval]
    · simp [hfw]
  refine ⟨{ l with size := s.uploadTotal }, ?_, ?_⟩
  · rw [finishUpload, finishUpload, hfailed]
    rfl
  · refine ⟨Or.inl htype, fun hu => absurd hu (by simp [finishUpload, servePage]),
      fun hu => absurd hu (by simp [finishUpload, servePage]), fun _ => ⟨rfl, fun hf => ?_⟩⟩
    rw [finishUpload_uploadFailed, failedAtEnd, Bool.or_eq_false_iff] at hf
    rw [finishUpload_xferSize, finishUpload_ram]
    exact (h.agree hs hf.1).mono (hall hf.1)

/-- A segment of an upload. -/
theorem same_handleBody (h : Masked t₀ s l) (hw : Wf s) (hbody : TakesBody s e)
    (hown : ChecksOwn t₀ s e) :
    Same t₀ (handleBody fs s e) (handleBody fs (s.withLeftover l) e) := by
  have hs := hbody.2.2.1
  rw [handleBody, handleBody, if_pos hs, if_pos (show (s.withLeftover l).state = _ from hs)]
  by_cases hfirst : (!s.smallFileFlag && !s.dataStartFound) = true
  · rw [if_pos hfirst, if_pos (show (!(s.withLeftover l).smallFileFlag &&
      !(s.withLeftover l).dataStartFound) = true from hfirst)]
    simp only [Bool.and_eq_true, Bool.not_eq_true'] at hfirst
    have hp := (hw.fresh hs hfirst.2 hfirst.1).2
    obtain ⟨hout, l', hstate, hmask⟩ := same_firstchunk (e := e) h hw hs hp
    simp only [hout, hstate]
    by_cases hfound : (httpdFindandstoreFirstchunk s e).2.1 = true
    · rw [if_pos hfound, if_pos hfound]
      rw [hfound] at hmask
      exact ⟨rfl, l', rfl, hmask⟩
    · rw [if_neg hfound, if_neg hfound]
      exact ⟨rfl, l', rfl, masked_quiet hmask (by simp [httpdStateReset])
        (by simp [httpdStateReset]) rfl rfl rfl rfl rfl⟩
  rw [if_neg hfirst, if_neg (show ¬ (!(s.withLeftover l).smallFileFlag &&
    !(s.withLeftover l).dataStartFound) = true from hfirst)]
  have hflags : s.smallFileFlag = true ∨ s.dataStartFound = true := by
    rcases hsm : s.smallFileFlag with _ | _
    · rcases hds : s.dataStartFound with _ | _
      · simp [hsm, hds] at hfirst
      · exact Or.inr rfl
    · exact Or.inl rfl
  -- the segment is stored at the same place in both
  obtain ⟨hstate, hmask⟩ := same_storeBody (e := e) h hw hs
  generalize (storeBody (s.withLeftover l) e).leftover = l' at hstate hmask
  have hcomplete : bodyComplete (storeBody (s.withLeftover l) e) = bodyComplete (storeBody s e) := by
    rw [hstate]
    rfl
  have hstores : (if (s.withLeftover l).uploadFailed = true then ([] : List (ℕ × ℕ))
      else [((s.withLeftover l).dataPointer, e.seg.length)])
      = if s.uploadFailed = true then [] else [(s.dataPointer, e.seg.length)] := by
    rw [h.pointer hs]
    rfl
  simp only [hcomplete, hstores]
  by_cases hc : bodyComplete (storeBody s e) = true
  swap
  · rw [if_neg hc, if_neg hc, hstate]
    exact ⟨rfl, l', rfl, hmask⟩
  rw [if_pos hc, if_pos hc, hstate]
  have hw' := wf_storeBody (e := e) hw hs hflags
  -- the upload completes: what the checks look at must not be a leftover
  have hcond := hown hbody hflags hc
  have htype : (storeBody s e).upgradeType = l'.upgradeType := by
    refine hmask.type.resolve_right fun ht => ?_
    rw [storeBody_dataStartFound, storeBody_uploadFailed] at ht
    rcases (hcond ht.2.2.2).1 with hd | ⟨hfw, _⟩
    · exact absurd (hd.symm.trans ht.2.1) (by simp)
    · exact ht.1 hfw
  have hall : (storeBody s e).uploadFailed = false →
      (storeBody s e).uploadTotal ≤ (storeBody s e).upload := by
    rw [storeBody_uploadFailed]
    intro hf
    rcases (hcond hf).1 with hd | ⟨_, hle⟩
    · exact uploadTotal_le_upload hw' (by rw [storeBody_state, hs])
        (by rw [storeBody_uploadFailed, hf]) (by rw [storeBody_dataStartFound, hd]) hc
    · exact hle
  have hread : (storeBody s e).uploadFailed = false →
      (storeBody s e).upgradeType = .firmware →
      ReadsInside (fun off => (storeBody s e).ram (u32 (loadaddr + off)))
        (storeBody s e).uploadTotal (storeBody s e).upload := by
    rw [storeBody_uploadFailed, storeBody_upgradeType]
    exact fun hf => (hcond hf).2
  obtain ⟨l'', hfin, hmask'⟩ := same_finishUpload fs hmask (by rw [storeBody_state, hs]) htype
    hall hread
  rw [hfin]
  exact ⟨rfl, l'', rfl, hmask'⟩

end Step

/-- One call over other leftovers answers alike, and the difference stays unseen. -/
theorem masked_step (fs : Fs) {t₀ : UpgradeType} {s : State} {l : Leftover} {e : Event}
    (h : Masked t₀ s l) (hw : Wf s) (hown : ChecksOwn t₀ s e) :
    Same t₀ (httpdAppcall fs s e) (httpdAppcall fs (s.withLeftover l) e) := by
  have hreset : Masked t₀ (httpdStateReset s) l :=
    masked_quiet h (by simp [httpdStateReset]) (by simp [httpdStateReset]) rfl rfl rfl rfl rfl
  refine appcall_lockstep fs (Same t₀) rfl (fun _ => Iff.rfl) (fun _ => ⟨rfl, l, rfl, h⟩)
    (fun _ => ⟨rfl, l, rfl, hreset⟩) ⟨rfl, l, rfl, ⟨h.type, h.pointer, h.agree, h.pending⟩⟩
    (fun _ => ⟨rfl, l, rfl, h⟩) (fun hreq => ?_) (same_handleAcked h)
    (fun hbody => same_handleBody fs h hw hbody hown)
  rw [handleRequest, handleRequest]
  by_cases hget : isGet e.appdata = true
  · rw [if_pos hget, if_pos hget]
    exact same_handleGet fs h
  rw [if_neg hget, if_neg hget]
  by_cases hpost : isPost e.appdata = true
  · rw [if_pos hpost, if_pos hpost]
    exact same_handlePost h hw hreq.2.2
  · rw [if_neg hpost, if_neg hpost]
    exact same_resetAbort h

/-- What is shown does not depend on leftovers that are masked. -/
theorem observed_eq (fs : Fs) {t₀ : UpgradeType} {s : State} {l : Leftover} {e : Event}
    (h : Masked t₀ s l) (hw : Wf s) (hown : ChecksOwn t₀ s e) :
    (observedStep fs s e).2 = (observedStep fs (s.withLeftover l) e).2 := by
  obtain ⟨hout, l', hstate, _⟩ := masked_step fs h hw hown
  have hready : (httpdAppcall fs (s.withLeftover l) e).1.readyForUpgrade
      = (httpdAppcall fs s e).1.readyForUpgrade := by
    rw [hstate]
    rfl
  simp only [observedStep, hout, hready, show (s.withLeftover l).readyForUpgrade
    = s.readyForUpgrade from rfl]
  by_cases hset : (!s.readyForUpgrade && (httpdAppcall fs s e).1.readyForUpgrade) = true
  swap
  · rw [if_neg hset, if_neg hset]
  rw [if_pos hset, if_pos hset]
  simp only [Bool.and_eq_true, Bool.not_eq_true'] at hset
  -- the upgrade released is the pending one, in both
  obtain ⟨hcommit, heq⟩ := commits_of_ready fs hset.1 hset.2
  obtain ⟨_, heq'⟩ := commits_of_ready fs (s := s.withLeftover l) hset.1 (hready.trans hset.2)
  obtain ⟨hsize, hram⟩ := h.pending hcommit.2.2.1
  have htype : s.upgradeType = l.upgradeType :=
    h.type.resolve_right fun ht => absurd (hcommit.2.2.1.symm.trans ht.2.2.1) (by simp)
  have hslice := (hram hcommit.2.2.2).slice
  rw [heq, heq']
  show _ = Observation.mk _ _ (some (l.upgradeType, l.size, slice ramSize l.ram loadaddr l.size))
  rw [← htype, ← hsize, ← hslice]
  rfl

/-! ### Runs -/

/-- No flag is left over. -/
def NoFlags (s : State) : Prop :=
  s.postDone = false ∧ s.uploadFailed = false ∧ s.smallFileFlag = false

instance (s : State) : Decidable (NoFlags s) := by unfold NoFlags; infer_instance

/-- After a reset without flags, only leftovers tell the state from the initial one. -/
theorem initial_eq_withLeftover {s : State} {ram : Ram} (h : NoFlags s)
    (hready : s.readyForUpgrade = false) :
    initial ram = (httpdStateReset s).withLeftover (initial ram).leftover := by
  obtain ⟨hpd, hf, hsm⟩ := h
  simp [initial, httpdStateReset, State.withLeftover, State.leftover, hpd, hf, hsm, hready]

theorem masked_initial {s : State} {ram : Ram} (h : NoFlags s) :
    Masked s.upgradeType (httpdStateReset s) (initial ram).leftover := by
  obtain ⟨hpd, hf, _⟩ := h
  refine ⟨?_, fun hu => absurd hu (by simp [httpdStateReset]),
    fun hu => absurd hu (by simp [httpdStateReset]), fun hd => absurd (hd.symm.trans hpd) (by simp)⟩
  by_cases ht : s.upgradeType = .firmware
  · exact Or.inl ht
  · exact Or.inr ⟨ht, rfl, hpd, hf⟩

theorem allSteps_observed (fs : Fs) {P : State → Event → Prop} {s : State} {es : List Event}
    (h : Run.AllSteps (httpdAppcall fs) P s es) : Run.AllSteps (observedStep fs) P s es := by
  refine Run.allSteps_of_fst_eq ?_ h
  exact fun u e => rfl

/-- **History independence.**  After any history that ends in a reset, before the
server became ready and with no flag left over, every following run that checks its
own uploads is answered, and releases an upgrade, as from the initial globals. -/
theorem history_independent (fs : Fs) (ram ram' : Ram) (hist : List Event) (last : Event)
    (es : List Event) (hlast : Resets (serve fs (initial ram) hist) last)
    (hready : (serve fs (initial ram) (hist ++ [last])).readyForUpgrade = false)
    (hflags : NoFlags (serve fs (initial ram) (hist ++ [last])))
    (hown : Run.AllSteps (httpdAppcall fs)
      (ChecksOwn (serve fs (initial ram) (hist ++ [last])).upgradeType)
      (serve fs (initial ram) (hist ++ [last])) es) :
    Run.outputs (observedStep fs) (serve fs (initial ram) (hist ++ [last])) es
      = Run.outputs (observedStep fs) (initial ram') es := by
  have hw := wf_serve fs (hist ++ [last]) (wf_initial ram)
  rw [serve, Run.exec_concat, appcall_resets fs hlast] at hready hflags hown hw ⊢
  generalize serve fs (initial ram) hist = s at hready hflags hown hw ⊢
  have hsim : (Run.outputs (observedStep fs) (httpdStateReset s) es).map id
      = (Run.outputs (observedStep fs) (initial ram') es).map id := by
    refine Run.outputs_eq_of_simulation
      (R := fun u v => Wf u ∧ ∃ l, v = u.withLeftover l ∧ Masked s.upgradeType u l)
      (P := ChecksOwn s.upgradeType) id (fun u v e hrel hc => ?_)
      ⟨hw, _, initial_eq_withLeftover (s := s) hflags hready, masked_initial (s := s) hflags⟩
      (allSteps_observed fs hown)
    obtain ⟨hwu, l, rfl, hmask⟩ := hrel
    obtain ⟨_, l', hstate, hmask'⟩ := masked_step fs hmask hwu hc
    exact ⟨⟨wf_step fs e hwu, l', hstate, hmask'⟩, observed_eq fs hmask hwu hc⟩
  simpa using hsim

/-! ### Two histories -/

/-- A page is fetched and acknowledged on connection 1. -/
def fetchRun : List Event :=
  [connected 1, newData 1 (ascii "GET / HTTP/1.1\r\n\r\n") getPage_lt, acked 1]

/-- A small upload in two segments and the acknowledgement of its page, on connection 1. -/
def uploadRun : List Event :=
  [connected 1, newData 1 (tinyUpload.bytes.take tinyUpload.dataStart) tinyUpload_head_lt,
    newData 1 (tinyUpload.bytes.drop tinyUpload.dataStart) tinyUpload_tail_lt, acked 1]

theorem history_independent_uploadRun :
    Run.outputs (observedStep default)
        (serve default (initial fun _ => 7) (fetchRun ++ [closed 1])) uploadRun
      = Run.outputs (observedStep default) (initial fun _ => 0) uploadRun := by
  refine history_independent default (fun _ => 7) (fun _ => 0) fetchRun (closed 1) uploadRun
    ⟨rfl, Or.inl rfl⟩ (by decide) (by decide) ⟨?_, ?_, ?_, ?_, trivial⟩
  · exact fun h => absurd h (by decide)
  · exact fun h => absurd h (by decide)
  · exact fun _ _ _ _ => ⟨Or.inl (by decide), fun h => absurd h (by decide)⟩
  · exact fun h => absurd h (by decide)

/-- **History shows.**  After an upload has completed and its connection has been closed, the
next page that is fetched makes the server ready for the upgrade. -/
theorem history_shows :
    Resets (serve default (initial fun _ => 0) (tinySplit tinyUpload.dataStart)) (closed 0) ∧
      (serve default (initial fun _ => 0)
        (tinySplit tinyUpload.dataStart ++ [closed 0])).readyForUpgrade = false ∧
      Run.outputs (observedStep default)
          (serve default (initial fun _ => 0) (tinySplit tinyUpload.dataStart ++ [closed 0])) fetchRun
        ≠ Run.outputs (observedStep default) (initial fun _ => 0) fetchRun := by
  refine ⟨⟨rfl, Or.inl rfl⟩, by decide +kernel, by decide +kernel⟩

end Httpd
