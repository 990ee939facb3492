/-
The phases of the server while one upload comes in.

`httpd_appcall` is called for other things than new data while an upload is under way: for
the connection when it is established, for polls, for acknowledgements and retransmissions
of the page at the end.  `Phase R ram got s` says where the server stands once the bytes
`got` of the request `R` have been handed over: idle, receiving, or done.

* `phase_data`, `phase_connected`, `phase_poll`, `phase_rexmit` — one call either closes the
  connection or leads to the phase for the bytes handed over by then;
* `armed_of_phase` — whatever the call, `webfailsafe_ready_for_upgrade` is set only when the
  RAM holds exactly the data.
-/
import OpenMptcpRouter.Httpd.Reassembly

namespace Httpd

open CString Memory

/-- The RAM holds the data of the upload, and nothing more is to be flashed. -/
def Exact (R : UploadRequest) (s : State) : Prop :=
  s.netBootFileXferSize = R.data.length ∧ slice ramSize s.ram loadaddr R.data.length = R.data

/-- If the server is ready to flash, then what has been uploaded. -/
def Armed (R : UploadRequest) (s : State) : Prop := s.readyForUpgrade = true → Exact R s

/-- No request has come in. -/
structure Idle (ram : Ram) (s : State) : Prop where
  state : s.state = .none
  wf : Wf s
  smallFileFlag : s.smallFileFlag = false
  uploadFailed : s.uploadFailed = false
  postDone : s.postDone = false
  ram_eq : s.ram = ram

/-- The upload is complete, and the page is on its way. -/
def Delivered (R : UploadRequest) (s : State) : Prop :=
  s.state = .fileRequest ∧ (s.uploadFailed = false → Exact R s)

/-- The server once the bytes `got` have been handed over. -/
def Phase (R : UploadRequest) (ram : Ram) (got : List UInt8) (s : State) : Prop :=
  s.readyForUpgrade = false ∧
    (got = [] ∧ Idle ram s ∨ Progress R (fill ramSize ram loadaddr 0xFF maxUbootSize) got.length s ∨
      got = R.bytes ∧ Delivered R s)

/-- The new data of a call. -/
def Event.fresh (e : Event) : List UInt8 := if e.flags.newdata then e.seg else []

section Steps

variable {R : UploadRequest} {ram m : Ram} {got : List UInt8} {s : State} {e : Event} {o : ℕ}
  (fs : Fs)

theorem Progress.state (h : Progress R m o s) : s.state = .uploadRequest := by
  obtain ⟨-, -, ha | ⟨x, hc⟩⟩ := h
  · exact ha.state
  · exact hc.state

/-- The counter of the polls does not matter to an upload. -/
theorem Progress.count (h : Progress R m o s) (n : ℕ) : Progress R m o { s with count := n } := by
  obtain ⟨hw, hpost, hphase⟩ := h
  refine ⟨⟨hw.1, hw.2, hw.3, hw.4, hw.5, hw.6, hw.7, hw.8, hw.9⟩, hpost, ?_⟩
  rcases hphase with ha | ⟨x, hc⟩
  · exact Or.inl ⟨ha.1, ha.2, ha.3, ha.4, ha.5, ha.6, ha.7, ha.8, ha.9, ha.10⟩
  · have hr := hc.toReceiving
    exact Or.inr ⟨x, ⟨hr.1, hr.2, hr.3, hr.4, hr.5, hr.6, hr.7, hr.8, hr.9, hr.10⟩, hc.failed⟩

theorem Idle.count (h : Idle ram s) (n : ℕ) : Idle ram { s with count := n } := by
  have hw := h.wf
  exact ⟨h.state, ⟨hw.1, hw.2, hw.3, hw.4, hw.5, hw.6, hw.7, hw.8, hw.9⟩, h.smallFileFlag,
    h.uploadFailed, h.postDone, h.ram_eq⟩

theorem Idle.reset (h : Idle ram s) : Idle ram (httpdStateReset s) :=
  ⟨rfl, wf_reset, h.smallFileFlag, h.uploadFailed, h.postDone, h.ram_eq⟩

theorem Phase.count (h : Phase R ram got s) (n : ℕ) : Phase R ram got { s with count := n } := by
  obtain ⟨hready, ⟨hgot, hidle⟩ | hprog | ⟨hgot, hstate, hexact⟩⟩ := h
  · exact ⟨hready, Or.inl ⟨hgot, hidle.count n⟩⟩
  · exact ⟨hready, Or.inr (Or.inl (hprog.count n))⟩
  · exact ⟨hready, Or.inr (Or.inr ⟨hgot, hstate, hexact⟩)⟩

/-- Only an acknowledged page makes the server ready to flash. -/
theorem readyForUpgrade_of_not_takesAck (h : ¬ TakesAck s e) :
    (httpdAppcall fs s e).1.readyForUpgrade = s.readyForUpgrade := by
  have hfirst : ∀ (s : State) (e : Event),
      (httpdFindandstoreFirstchunk s e).1.readyForUpgrade = s.readyForUpgrade := by
    intro s e
    rcases firstchunk_cases s e with ⟨t, ht⟩ | ⟨bv, start, t, stop, -, -, -, -, -, heq⟩
    · rw [ht]
    · rw [heq]
      rfl
  have hexit := exit_of_appcall fs s e
  generalize httpdAppcall fs s e = r at hexit ⊢
  cases hexit with
  | lastAcked hack => exact absurd hack h
  | nextChunk hack => exact absurd hack h
  | post hreq n bv => exact hfirst (beginUpload s n bv) e
  | firstFound => exact hfirst s e
  | firstLost => exact hfirst s e
  | stored => rw [storeBody_readyForUpgrade]
  | finished => exact storeBody_readyForUpgrade s e
  | _ => rfl

/-- **Whatever the call**, the server is ready to flash only what has been uploaded. -/
theorem armed_of_phase (h : Phase R ram got s) (e : Event) : Armed R (httpdAppcall fs s e).1 := by
  by_cases hack : TakesAck s e
  swap
  · intro hready
    rw [readyForUpgrade_of_not_takesAck fs hack, h.1] at hready
    exact absurd hready (by simp)
  obtain ⟨hready, ⟨-, hidle⟩ | hprog | ⟨-, -, hexact⟩⟩ := h
  · have hnone := hack.2.2
    rw [hidle.state] at hnone
    exact absurd hnone (by decide)
  · have hnone := hack.2.2
    rw [hprog.state] at hnone
    exact absurd hnone (by decide)
  have hexit := exit_of_appcall fs s e
  generalize httpdAppcall fs s e = r at hexit ⊢
  cases hexit with
  | lastAcked =>
    intro hset
    -- the page was acknowledged, and the upload has not failed
    have hok : s.uploadFailed = false := by
      simp only [httpdStateReset, commit] at hset
      split at hset
      · simpa [hready] using hset
      · rw [hready] at hset
        exact absurd hset (by simp)
    obtain ⟨hsize, hslice⟩ := hexact hok
    simp only [Exact, httpdStateReset, commit]
    split
    · exact ⟨hsize, hslice⟩
    · exact ⟨hsize, hslice⟩
  | foreign hport => exact absurd hack.1.1 hport
  | closed hplain => exact absurd hack.1 hplain
  | tick hplain => exact absurd hack.1 hplain
  | get hreq => exact absurd (hreq.2.2.symm.trans hack.2.2) (by decide)
  | refuse hreq => exact absurd (hreq.2.2.symm.trans hack.2.2) (by decide)
  | refusePost hreq => exact absurd (hreq.2.2.symm.trans hack.2.2) (by decide)
  | post hreq => exact absurd (hreq.2.2.symm.trans hack.2.2) (by decide)
  | nextChunk => exact fun hset => absurd (hready.symm.trans hset) (by simp)
  | resend => exact fun hset => absurd (hready.symm.trans hset) (by simp)
  | idle => exact fun hset => absurd (hready.symm.trans hset) (by simp)
  | firstFound hbody => exact absurd (hbody.2.2.1.symm.trans hack.2.2) (by decide)
  | firstLost hbody => exact absurd (hbody.2.2.1.symm.trans hack.2.2) (by decide)
  | stored hbody => exact absurd (hbody.2.2.1.symm.trans hack.2.2) (by decide)
  | finished hbody => exact absurd (hbody.2.2.1.symm.trans hack.2.2) (by decide)

/-- A connection that ends leaves what has been uploaded alone. -/
theorem armed_of_ended (h : Armed R s)
    (hflags : e.flags.close = true ∨ e.flags.abort = true ∨ e.flags.timedout = true) :
    Armed R (httpdAppcall fs s e).1 := by
  rw [httpdAppcall]
  by_cases hport : e.lport = 80
  swap
  · rw [if_neg hport]
    exact h
  rw [if_pos hport]
  by_cases hclose : e.flags.close = true
  · rw [if_pos hclose]
    exact h
  · rw [if_neg hclose, if_pos (by simpa using hflags.resolve_left hclose)]
    exact h

/-! ### The calls on the way -/

theorem phase_connected {newdata : Bool} (h : Phase R ram got s) (hs : s.state = .none)
    (hport : e.lport = 80) (hflags : e.flags = { connected := true, newdata := newdata }) :
    Phase R ram got (httpdAppcall fs s e).1 ∧ (httpdAppcall fs s e).1.state = .none ∧
      (httpdAppcall fs s e).2.send = none := by
  have hcall : httpdAppcall fs s e = (httpdStateReset s, {}) := by
    simp [httpdAppcall, hport, hflags]
  rw [hcall]
  refine ⟨⟨h.1, ?_⟩, rfl, rfl⟩
  rcases h.2 with ⟨hgot, hidle⟩ | hprog | ⟨-, hstate, -⟩
  · exact Or.inl ⟨hgot, hidle.reset⟩
  · rw [hprog.state] at hs
    exact absurd hs (by decide)
  · rw [hstate] at hs
    exact absurd hs (by decide)

theorem phase_poll (h : Phase R ram got s) (hport : e.lport = 80)
    (hflags : e.flags = { poll := true }) (hreply : (httpdAppcall fs s e).2.reply = .none) :
    Phase R ram got (httpdAppcall fs s e).1 ∧
      (httpdAppcall fs s e).1.state = s.state ∧ (httpdAppcall fs s e).2.send = none := by
  have hcall : httpdAppcall fs s e =
      if 100 ≤ s.count then resetAbort s else ({ s with count := s.count + 1 }, {}) := by
    simp [httpdAppcall, hport, hflags]
  rw [hcall] at hreply ⊢
  by_cases hcount : 100 ≤ s.count
  · rw [if_pos hcount] at hreply
    exact absurd hreply (by simp [resetAbort])
  · rw [if_neg hcount]
    exact ⟨h.count _, rfl, rfl⟩

theorem phase_rexmit (h : Phase R ram got s) (hs : s.state = .fileRequest) (hport : e.lport = 80)
    (hflags : e.flags = { rexmit := true }) :
    Phase R ram got (httpdAppcall fs s e).1 ∧ (httpdAppcall fs s e).1.state = .fileRequest := by
  have hcall : (httpdAppcall fs s e).1 = s := by
    simp [httpdAppcall, hport, hflags, handleRexmit, hs]
  rw [hcall]
  exact ⟨h, hs⟩

/-- A call with nothing in it. -/
theorem appcall_nothing (hport : e.lport = 80) (hflags : e.flags = {}) :
    httpdAppcall fs s e = (s, {}) := by
  simp [httpdAppcall, hport, hflags]

/-- The first segment of the request. -/
theorem phase_first_data (hidle : Idle ram s) (hready : s.readyForUpgrade = false)
    (hnd : e.IsNewData o) (hpiece : e.seg <+: R.bytes) (hhead : R.head <+: e.seg)
    (hreply : (httpdAppcall fs s e).2.reply = .none) :
    Phase R ram e.seg (httpdAppcall fs s e).1 ∧ (httpdAppcall fs s e).2.send = none := by
  have hcall := appcall_first fs hnd hidle.state hpiece hhead
  have hwf := wf_step fs e hidle.wf
  have hsame := readyForUpgrade_of_not_takesAck fs (s := s) (e := e)
    fun hack => by rw [TakesAck, hidle.state] at hack; exact absurd hack.2.2 (by decide)
  by_cases hmalloc : e.malloc = true
  · rw [if_pos hmalloc] at hcall
    obtain ⟨hpost, hphase⟩ := phase_first hidle.state hidle.wf hidle.smallFileFlag
      hidle.uploadFailed hpiece hhead
    rw [hidle.ram_eq] at hphase
    refine ⟨⟨hsame.trans hready, Or.inr (Or.inl ⟨hwf, ?_, ?_⟩)⟩, ?_⟩
    · rw [hcall]
      exact hpost.trans hidle.postDone
    · rw [hcall]
      exact hphase
    · rw [hcall]
  · rw [if_neg hmalloc] at hcall
    rw [hcall] at hreply
    exact absurd hreply (by simp [resetAbort])

/-- The segments behind it. -/
theorem phase_next_data (hprog : Progress R (fill ramSize ram loadaddr 0xFF maxUbootSize) got.length s)
    (hready : s.readyForUpgrade = false) (hnd : e.IsNewData o) (hpiece : got ++ e.seg <+: R.bytes)
    (hreply : (httpdAppcall fs s e).2.reply = .none) :
    Phase R ram (got ++ e.seg) (httpdAppcall fs s e).1 ∧
      ((httpdAppcall fs s e).2.send = none ∨ (httpdAppcall fs s e).1.state = .fileRequest) := by
  have hseg : e.seg <+: R.bytes.drop got.length := by
    obtain ⟨rest, hrest⟩ := hpiece
    refine ⟨rest, ?_⟩
    rw [← hrest, List.append_assoc, List.drop_left]
  have hopen : (httpdAppcall fs s e).2.reply ≠ .abort := by
    rw [hreply]
    decide
  have hsame := readyForUpgrade_of_not_takesAck fs (s := s) (e := e)
    fun hack => by rw [TakesAck, hprog.state] at hack; exact absurd hack.2.2 (by decide)
  have hlen : (got ++ e.seg).length = got.length + e.seg.length := List.length_append
  rcases progress_step fs hprog hnd hseg hopen with hp | ⟨hend, hw, hc, hfin⟩
  · refine ⟨⟨hsame.trans hready, Or.inr (Or.inl ?_)⟩, ?_⟩
    · rw [hlen]
      exact hp
    · have hbody : TakesBody s e :=
        ⟨hnd.plain, by rw [hnd.2.2], hprog.state, by rw [hnd.2.2], by rw [hnd.2.2]⟩
      have hstate := hp.state
      have hexit := exit_of_appcall fs s e
      generalize httpdAppcall fs s e = r at hexit hstate ⊢
      cases hexit with
      | finished => exact Or.inr rfl
      | resend _ hs => exact absurd (hprog.state.symm.trans hs) (by decide)
      | get hreq => exact Or.inr rfl
      | nextChunk hack => exact absurd (hprog.state.symm.trans hack.2.2) (by decide)
      | _ => exact Or.inl rfl
  · have hall : got ++ e.seg = R.bytes :=
      hpiece.eq_of_length (by rw [hlen, hend])
    refine ⟨⟨hsame.trans hready, Or.inr (Or.inr ⟨hall, ?_⟩)⟩, Or.inr ?_⟩
    · rw [hfin]
      refine ⟨rfl, fun hf => ?_⟩
      rw [finishUpload_uploadFailed, failedAtEnd, Bool.or_eq_false_iff] at hf
      obtain ⟨htotal, -, hslice⟩ := hc.toReceiving.data hw hf.1
      rw [Exact, finishUpload_xferSize, finishUpload_ram]
      exact ⟨htotal, hslice⟩
    · rw [hfin]
      rfl

/-- **A segment or an acknowledgement.**  Unless the server closes the connection, it is in
the phase for the bytes handed over by then. -/
theorem phase_data {newdata acked : Bool} (h : Phase R ram got s) (hport : e.lport = 80)
    (hflags : e.flags = { newdata := newdata, ackdata := acked })
    (hacked : acked = true → s.state = .fileRequest) (hne : newdata = true → e.seg ≠ [])
    (hpiece : got ++ e.fresh <+: R.bytes) (hhead : got = [] → e.fresh ≠ [] → R.head <+: e.fresh)
    (hreply : (httpdAppcall fs s e).2.reply = .none) :
    Phase R ram (got ++ e.fresh) (httpdAppcall fs s e).1 ∧
      ((httpdAppcall fs s e).2.send = none ∨ (httpdAppcall fs s e).1.state = .fileRequest) := by
  have hplain : e.Plain := by simp [Event.Plain, hport, hflags]
  by_cases hdone : s.state = .fileRequest
  · -- the request has ended
    obtain ⟨hready, ⟨-, hidle⟩ | hprog | ⟨hgot, -, hexact⟩⟩ := h
    · exact absurd (hidle.state.symm.trans hdone) (by decide)
    · exact absurd (hprog.state.symm.trans hdone) (by decide)
    have hnil : e.fresh = [] := by
      have hle := hpiece.length_le
      rw [List.length_append, hgot] at hle
      exact List.eq_nil_of_length_eq_zero (by omega)
    rw [hnil, List.append_nil]
    have hexit := exit_of_appcall fs s e
    generalize httpdAppcall fs s e = r at hexit hreply ⊢
    cases hexit with
    | foreign hp => exact absurd hport hp
    | closed hp => exact absurd hplain hp
    | tick hp => exact absurd hplain hp
    | get hreq => exact absurd (hreq.2.2.symm.trans hdone) (by decide)
    | refuse hreq => exact absurd (hreq.2.2.symm.trans hdone) (by decide)
    | refusePost hreq => exact absurd (hreq.2.2.symm.trans hdone) (by decide)
    | post hreq => exact absurd (hreq.2.2.symm.trans hdone) (by decide)
    | lastAcked => exact absurd hreply (by simp)
    | nextChunk => exact ⟨⟨hready, Or.inr (Or.inr ⟨hgot, hdone, hexact⟩)⟩, Or.inr hdone⟩
    | resend => exact ⟨⟨hready, Or.inr (Or.inr ⟨hgot, hdone, hexact⟩)⟩, Or.inr hdone⟩
    | idle => exact ⟨⟨hready, Or.inr (Or.inr ⟨hgot, hdone, hexact⟩)⟩, Or.inr hdone⟩
    | firstFound hbody => exact absurd (hbody.2.2.1.symm.trans hdone) (by decide)
    | firstLost hbody => exact absurd (hbody.2.2.1.symm.trans hdone) (by decide)
    | stored hbody => exact absurd (hbody.2.2.1.symm.trans hdone) (by decide)
    | finished hbody => exact absurd (hbody.2.2.1.symm.trans hdone) (by decide)
  obtain rfl : acked = false := by
    cases acked with
    | true => exact absurd (hacked rfl) hdone
    | false => rfl
  cases newdata with
  | false =>
    have hnil : e.fresh = [] := by rw [Event.fresh, hflags]; rfl
    rw [hnil, List.append_nil, appcall_nothing fs hport hflags]
    exact ⟨h, Or.inl rfl⟩
  | true =>
    have hnd : e.IsNewData e.conn := ⟨rfl, hport, hflags⟩
    have hfresh : e.fresh = e.seg := by rw [Event.fresh, hflags]; rfl
    rw [hfresh] at hpiece hhead ⊢
    obtain ⟨hready, ⟨rfl, hidle⟩ | hprog | ⟨-, hstate, -⟩⟩ := h
    · obtain ⟨hphase, hsend⟩ :=
        phase_first_data fs hidle hready hnd hpiece (hhead rfl (hne rfl)) hreply
      exact ⟨hphase, Or.inl hsend⟩
    · exact phase_next_data fs hprog hready hnd hpiece hreply
    · exact absurd hstate hdone

end Steps

end Httpd
