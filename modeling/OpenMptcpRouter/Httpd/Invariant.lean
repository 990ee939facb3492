/-
The representation invariant of the upload server.

`Wf s` relates the pieces of state that `httpd_appcall` changes separately: the
boundary is allocated exactly while an upload is in progress, and as long as the
upload has not failed the store pointer is `CONFIG_LOADADDR + hs->upload`.

* `wf_step` — one call keeps it, whatever the event;
* `wf_serve` — so every run from the initial globals does.
-/
import OpenMptcpRouter.Httpd.Steps

namespace Httpd

open CString Memory Search

theorem u32_lt (x : ℤ) : u32 x < 2 ^ 32 := by
  rw [u32]
  omega

theorem le_fwSize_of_sizeRefused {t : UpgradeType} {n : ℕ} (h : sizeRefused t n = false) :
    n ≤ uploadFwSizeInBytes := by
  rw [sizeRefused] at h
  split at h
  · exact absurd h (by simp)
  split at h
  · exact absurd h (by simp)
  simpa using h

/-- What the boundary search returns: `--` and the text up to the line end, which
lies in the segment. -/
theorem boundary_spec {e : Event} {bv : List UInt8} (h : boundary e.appdataZ = some bv) :
    bv ≠ [] ∧ (0 : UInt8) ∉ bv ∧ bv.length < 2 ^ 16 := by
  rw [boundary] at h
  split at h
  · exact absurd h (by simp)
  rename_i i hi
  split at h
  · exact absurd h (by simp)
  rename_i j hj
  rw [Option.some_inj] at h
  subst h
  have hname := strstr_appdataZ_le boundaryName_ne_nil zero_notMem_boundaryName (Nat.zero_le _) hi
  rw [length_boundaryName] at hname
  have heol := strstr_appdataZ_le eol_ne_nil zero_notMem_eol hname.2 hj
  have hfree := ((strstr_eq_some eol_ne_nil zero_notMem_eol).mp hj).2.2.1
  have heol2 : eol.length = 2 := by decide
  have hseg := e.seg_lt
  refine ⟨by simp [show ascii "--" = [45, 45] by decide], ?_, ?_⟩
  · rw [List.mem_append, not_or]
    refine ⟨by decide, fun hmem => ?_⟩
    obtain ⟨x, hx⟩ := List.getElem?_of_mem hmem
    have hxlt : x < j - (i + 9) := by
      by_contra hge
      rw [List.getElem?_take, if_neg hge] at hx
      exact absurd hx (by simp)
    rw [List.getElem?_take, if_pos hxlt, List.getElem?_drop] at hx
    exact hfree (i + 9 + x) (by omega) (by omega) hx
  · have htake : ((e.appdataZ.drop (i + 9)).take (j - (i + 9))).length ≤ j - (i + 9) := by
      rw [List.length_take]
      exact Nat.min_le_left _ _
    rw [List.length_append, show (ascii "--").length = 2 by decide]
    omega

/-- The representation invariant. -/
structure Wf (s : State) : Prop where
  /-- the boundary is allocated exactly during an upload -/
  boundary_iff : s.boundaryValue.isSome = true ↔ s.state = .uploadRequest
  boundary_ok : ∀ bv, s.boundaryValue = some bv → bv ≠ [] ∧ (0 : UInt8) ∉ bv ∧ bv.length < 2 ^ 16
  idle : s.state = .none → s.upload = 0
  found : s.dataStartFound = true → s.state = .uploadRequest
  upload_lt : s.upload < 2 ^ 32
  pointer : s.state = .uploadRequest → s.uploadFailed = false →
    s.dataPointer = (loadaddr + s.upload) % 2 ^ 32
  /-- until the data start is found, nothing is stored (small files aside) -/
  fresh : s.state = .uploadRequest → s.dataStartFound = false → s.smallFileFlag = false →
    s.upload = 0 ∧ s.dataPointer = loadaddr
  /-- finding the data start checks the size -/
  checked : s.state = .uploadRequest → s.uploadFailed = false → s.dataStartFound = true →
    s.uploadTotal ≤ uploadFwSizeInBytes
  /-- between two requests the request state is cleared -/
  clear : s.state = .none → s.dataptr = [] ∧ s.uploadTotal = 0

theorem boundary_length_lt {s : State} (h : Wf s) : (s.boundaryValue.getD []).length < 2 ^ 16 := by
  rcases hb : s.boundaryValue with _ | bv
  · simp
  · exact (h.boundary_ok bv hb).2.2

theorem wf_initial (ram : Ram) : Wf (initial ram) := by
  constructor <;> simp [initial]

theorem wf_reset {s : State} : Wf (httpdStateReset s) := by
  constructor <;> simp [httpdStateReset]

theorem wf_servePage {s : State} {f : FsFile} (h : Wf s) (hs : s.state ≠ .uploadRequest) :
    Wf (servePage s f) := by
  have hb : s.boundaryValue.isSome = false := by
    simpa using (not_congr h.boundary_iff).mpr hs
  constructor <;> simp only [servePage]
  · simp [hb]
  · exact h.boundary_ok
  · simp
  · exact fun hd => absurd (h.found hd) hs
  · exact u32_lt _
  · simp
  · simp
  · simp
  · simp

/-- The first chunk as it is stored: how long it is and where the pointer goes. -/
theorem storeFirstchunk_upload {s : State} {e : Event} {bv : List UInt8} {start stop : ℕ}
    (h : stop ≤ e.seg.length) :
    (storeFirstchunk s e bv start stop).upload = e.seg.length - stop := by
  have := e.seg_lt
  simp only [storeFirstchunk, u32]
  omega

theorem storeFirstchunk_ram {s : State} {e : Event} {bv : List UInt8} {start stop : ℕ}
    (h : stop ≤ e.seg.length) :
    (storeFirstchunk s e bv start stop).ram =
      store ramSize s.ram s.dataPointer ((e.appdataZ.drop stop).take (e.seg.length - stop)) := by
  rw [← @storeFirstchunk_upload s e bv start stop h]
  rfl

theorem wf_storeFirstchunk {s : State} {e : Event} {bv : List UInt8} {start stop : ℕ}
    (hs : s.state = .uploadRequest) (hb : s.boundaryValue = some bv)
    (hok : bv ≠ [] ∧ (0 : UInt8) ∉ bv ∧ bv.length < 2 ^ 16) (hp : s.dataPointer = loadaddr) :
    Wf { storeFirstchunk s e bv start stop with dataStartFound := true } := by
  constructor
  · simp [storeFirstchunk, hs, hb]
  · intro bv' hbv'
    simp only [storeFirstchunk, hb, Option.some_inj] at hbv'
    exact hbv' ▸ hok
  · simp [storeFirstchunk, hs]
  · simp [storeFirstchunk, hs]
  · simp only [storeFirstchunk]
    exact u32_lt _
  · intro _ _
    simp only [storeFirstchunk, hp, ramSize]
  · simp
  · intro _ hf _
    simp only [storeFirstchunk, Bool.or_eq_false_iff] at hf ⊢
    exact le_fwSize_of_sizeRefused hf.2
  · exact fun hn => absurd (hs.symm.trans hn) (by simp)

theorem wf_firstchunk {s : State} {e : Event} (h : Wf s) (hs : s.state = .uploadRequest)
    (hp : s.upload = 0 ∧ s.dataPointer = loadaddr) :
    Wf { (httpdFindandstoreFirstchunk s e).1 with
      dataStartFound := (httpdFindandstoreFirstchunk s e).2.1 } := by
  rcases firstchunk_cases s e with ⟨t, ht⟩ | ⟨bv, start, t, stop, hb, _, _, _, _, heq⟩
  · rw [ht]
    constructor
    · exact h.boundary_iff
    · exact h.boundary_ok
    · exact h.idle
    · simp
    · exact h.upload_lt
    · exact h.pointer
    · exact fun _ _ _ => hp
    · simp
    · exact h.clear
  · rw [heq]
    exact wf_storeFirstchunk hs hb (h.boundary_ok bv hb) hp.2

theorem wf_beginUpload {s : State} {n : ℕ} {bv : List UInt8} (h : Wf s) (hs : s.state = .none)
    (hok : bv ≠ [] ∧ (0 : UInt8) ∉ bv ∧ bv.length < 2 ^ 16) :
    Wf (beginUpload s n bv) := by
  constructor
  · simp [beginUpload]
  · intro bv' hbv'
    simp only [beginUpload, Option.some_inj] at hbv'
    exact hbv' ▸ hok
  · simp [beginUpload]
  · simp [beginUpload]
  · exact h.upload_lt
  · intro _ _
    simp [beginUpload, h.idle hs, loadaddr]
  · exact fun _ _ _ => ⟨h.idle hs, rfl⟩
  · exact fun _ _ hd => absurd (hs.symm.trans (h.found hd)) (by simp)
  · simp [beginUpload]

theorem wf_storeBody {s : State} {e : Event} (h : Wf s) (hs : s.state = .uploadRequest)
    (hf : s.smallFileFlag = true ∨ s.dataStartFound = true) : Wf (storeBody s e) := by
  constructor
  · rw [storeBody_boundaryValue, storeBody_state]
    exact h.boundary_iff
  · rw [storeBody_boundaryValue]
    exact h.boundary_ok
  · rw [storeBody_state]
    exact fun hn => absurd (hs.symm.trans hn) (by simp)
  · rw [storeBody_dataStartFound, storeBody_state]
    exact h.found
  · rw [storeBody_upload]
    exact u32_lt _
  · rw [storeBody_uploadFailed]
    intro _ hok
    rw [storeBody_dataPointer _ _ hok, h.pointer hs hok, storeBody_upload, ramSize, u32]
    omega
  · rw [storeBody_dataStartFound, storeBody_smallFileFlag]
    intro _ hd hsm
    rw [hd, hsm] at hf
    exact absurd hf (by simp)
  · rw [storeBody_state, storeBody_uploadFailed, storeBody_dataStartFound, storeBody_uploadTotal]
    exact h.checked
  · rw [storeBody_state]
    exact fun hn => absurd (hs.symm.trans hn) (by simp)

/-- One call keeps the representation invariant. -/
theorem wf_step (fs : Fs) {s : State} (e : Event) (h : Wf s) : Wf (httpdAppcall fs s e).1 := by
  have hexit := exit_of_appcall fs s e
  generalize httpdAppcall fs s e = r at hexit ⊢
  cases hexit with
  | foreign => exact h
  | closed => exact wf_reset
  | tick => exact ⟨h.1, h.2, h.3, h.4, h.5, h.6, h.7, h.8, h.9⟩
  | get hreq => exact wf_servePage h (by rw [hreq.2.2]; simp)
  | refuse => exact wf_reset
  | refusePost => exact wf_reset
  | post hreq n bv _ _ hb =>
    have hbegin := wf_beginUpload (n := n) h hreq.2.2 (boundary_spec hb)
    exact wf_firstchunk hbegin rfl ⟨h.idle hreq.2.2, rfl⟩
  | lastAcked => exact wf_reset
  | nextChunk hack =>
    constructor
    · exact h.boundary_iff
    · exact h.boundary_ok
    · exact fun hn => absurd (hack.2.2.symm.trans hn) (by simp)
    · exact h.found
    · exact u32_lt _
    · exact fun hu => absurd (hack.2.2.symm.trans hu) (by simp)
    · exact fun hu => absurd (hack.2.2.symm.trans hu) (by simp)
    · exact fun hu => absurd (hack.2.2.symm.trans hu) (by simp)
    · exact fun hn => absurd (hack.2.2.symm.trans hn) (by simp)
  | resend => exact h
  | idle => exact h
  | firstFound hbody hs hd hf =>
    have hw := wf_firstchunk (e := e) h hbody.2.2.1 (h.fresh hbody.2.2.1 hd hs)
    rwa [hf] at hw
  | firstLost => exact wf_reset
  | stored hbody hs => exact wf_storeBody h hbody.2.2.1 hs
  | finished => exact wf_servePage wf_reset (by simp [httpdStateReset])

/-- Every state a run reaches from a well-formed state is well-formed. -/
theorem wf_serve (fs : Fs) {s : State} (es : List Event) (h : Wf s) : Wf (serve fs s es) :=
  Run.exec_invariant Wf (P := fun _ _ => True) (fun _ e hs _ => wf_step fs e hs) h
    (Run.allSteps_iff.mpr fun _ _ _ _ => trivial)

end Httpd
