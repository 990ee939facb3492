/-
What is flashed.

The decision to flash is taken in `handleAcked`, from flags that an earlier request
has set: whenever `webfailsafe_ready_for_upgrade` becomes 1, the RAM from
`CONFIG_LOADADDR` on should hold the file of one completed upload, and that file
should have passed the checks of the type to be flashed (`CommitSafe`).

To say which upload that is, the server is run with a record of the segments it
takes (`Track`); the record has no effect on the server (`exec_trackedStep`).  Two
things break the property.  `webfailsafe_post_done` survives the end of its
connection, so that the acknowledgement of any later page commits whatever then is
in RAM; and the segments of all connections go into the one `hs`.

* `commitSafe_serve` — in every run in which an upload completes only with segments
  of its own, of one well-formed request, and is committed only while no other upload
  has been accepted, every commit is safe;
* `commit_overwritten` — a run in which a commit is not.
-/
import OpenMptcpRouter.Httpd.Segmentation

namespace Httpd

open CString Memory Search Fwtool

/-- The segments the server has taken: their connections and their bytes. -/
structure Track where
  /-- those of the upload in progress -/
  taken : List (ℕ × List UInt8) := []
  /-- those of the upload completed last -/
  done : List (ℕ × List UInt8) := []
  /-- another upload has been accepted since -/
  overwritten : Bool := false

/-- The record after a call that took `s` to `s'`. -/
def track (g : Track) (s : State) (e : Event) (s' : State) : Track :=
  if s.state = .none ∧ s'.state = .uploadRequest then
    { g with taken := [(e.conn, e.seg)], overwritten := true }
  else if TakesBody s e then
    if s'.state = .fileRequest then
      { taken := [], done := g.taken ++ [(e.conn, e.seg)], overwritten := false }
    else { g with taken := g.taken ++ [(e.conn, e.seg)] }
  else g

/-- The server with its record. -/
def trackedStep (fs : Fs) (sg : State × Track) (e : Event) : (State × Track) × Out :=
  let r := httpdAppcall fs sg.1 e
  ((r.1, track sg.2 sg.1 e r.1), r.2)

/-- The record does not change what the server does. -/
theorem exec_trackedStep (fs : Fs) (s : State) (g : Track) (es : List Event) :
    (Run.exec (trackedStep fs) (s, g) es).1 = serve fs s es := by
  induction es generalizing s g with
  | nil => rfl
  | cons e es ih => exact ih _ _

/-- The bytes of the recorded segments. -/
def received (ps : List (ℕ × List UInt8)) : List UInt8 := (ps.map Prod.snd).flatten

/-- `n` bytes of RAM passed the checks of type `t`. -/
def PassedChecks (t : UpgradeType) (ram : Ram) (n : ℕ) : Prop :=
  match t with
  | .firmware => validate ram n = .firmwareValid ∧ n ≤ uploadFwSizeInBytes
  | .uboot => n ≤ maxUbootSize
  | .art => n = artSize

/-- The recorded segments are one upload request on one connection, and the RAM
holds its file, which passed the checks. -/
def FileInRam (done : List (ℕ × List UInt8)) (s : State) : Prop :=
  ∃ (R : UploadRequest) (c : ℕ), (∀ p ∈ done, p.1 = c) ∧ received done = R.bytes ∧
    s.netBootFileXferSize = R.data.length ∧
    slice ramSize s.ram loadaddr s.netBootFileXferSize = R.data ∧
    PassedChecks s.upgradeType s.ram s.netBootFileXferSize

/-- If the call makes the server ready for the upgrade, the file of the upload
completed last is in RAM. -/
def CommitSafe (fs : Fs) (sg : State × Track) (e : Event) : Prop :=
  sg.1.readyForUpgrade = false → (httpdAppcall fs sg.1 e).1.readyForUpgrade = true →
    FileInRam sg.2.done (httpdAppcall fs sg.1 e).1

/-! ### The condition -/

/-- The segments come from connection `c` and start the request `R`; the first one
does not end at the colon of `Content-Length:`. -/
def OwnPieces (R : UploadRequest) (c : ℕ) (ps : List (ℕ × List UInt8)) : Prop :=
  (∀ p ∈ ps, p.1 = c) ∧ received ps <+: R.bytes ∧
    ∃ p rest, ps = p :: rest ∧ ascii "Content-Length: " <:+: p.2

/-- The call completes an upload, and the upload is not failed. -/
def Finishes (s : State) (e : Event) : Prop :=
  TakesBody s e ∧ (s.smallFileFlag = true ∨ s.dataStartFound = true) ∧
    bodyComplete (storeBody s e) = true ∧ failedAtEnd (storeBody s e) = false

/-- The call commits a completed upload. -/
def Commits (s : State) (e : Event) : Prop :=
  TakesAck s e ∧ s.upload ≤ e.mss ∧ s.postDone = true ∧ s.uploadFailed = false

/-- An upload completes only when its data start has been found, with the segments of
one upload request on one connection, and it is committed only while no other upload
has been accepted. -/
def Undisturbed (sg : State × Track) (e : Event) : Prop :=
  (Finishes sg.1 e → sg.1.dataStartFound = true ∧
    ∃ R c, OwnPieces R c (sg.2.taken ++ [(e.conn, e.seg)])) ∧
  (Commits sg.1 e → sg.2.overwritten = false)

/-! ### The invariant -/

/-- What is known of the upload in progress, should the segments taken turn out to be
the start of the request `R`. -/
structure Taking (R : UploadRequest) (o : ℕ) (s : State) : Prop where
  boundary : s.boundaryValue = some R.delim
  lost : s.dataStartFound = false → s.uploadTotal = R.n
  found : s.dataStartFound = true → ∃ x m, Receiving R x m o s

/-- The invariant of the server with its record. -/
structure Tracked (sg : State × Track) : Prop where
  wf : Wf sg.1
  overwritten : sg.1.state = .uploadRequest → sg.2.overwritten = true
  nonempty : sg.1.state = .uploadRequest → sg.2.taken ≠ []
  taking : sg.1.state = .uploadRequest → ∀ R c, OwnPieces R c sg.2.taken →
    Taking R (received sg.2.taken).length sg.1
  pending : sg.1.postDone = true → sg.2.overwritten = false → sg.1.uploadFailed = false →
    FileInRam sg.2.done sg.1

section Steps

variable {R : UploadRequest} {c : ℕ} {s : State} {g : Track} {e : Event}

theorem received_append (ps qs : List (ℕ × List UInt8)) :
    received (ps ++ qs) = received ps ++ received qs := by
  simp [received]

theorem received_singleton (p : ℕ × List UInt8) : received [p] = p.2 := by
  simp [received]

/-- The next segment as a piece of the request. -/
theorem ownPieces_concat {ps : List (ℕ × List UInt8)} (hps : ps ≠ [])
    (h : OwnPieces R c (ps ++ [(e.conn, e.seg)])) :
    OwnPieces R c ps ∧ e.seg <+: R.bytes.drop (received ps).length := by
  obtain ⟨hc, ⟨post, hpost⟩, p, rest, heq, hcolon⟩ := h
  rw [received_append, received_singleton, List.append_assoc] at hpost
  refine ⟨⟨fun q hq => hc q (List.mem_append_left _ hq), ⟨_, hpost⟩, ?_⟩, ?_⟩
  · obtain ⟨q, qs, rfl⟩ := List.exists_cons_of_ne_nil hps
    obtain ⟨rfl, rfl⟩ := List.cons_eq_cons.mp heq
    exact ⟨q, qs, rfl, hcolon⟩
  · rw [← hpost, List.drop_left]
    exact List.prefix_append _ _

theorem received_le (h : OwnPieces R c g.taken) : (received g.taken).length ≤ R.bytes.length :=
  h.2.1.length_le

theorem passedChecks_of_sizeRefused {t : UpgradeType} {ram : Ram} {n : ℕ}
    (h : sizeRefused t n = false) (hv : t = .firmware → validate ram n = .firmwareValid) :
    PassedChecks t ram n := by
  have hfw := le_fwSize_of_sizeRefused h
  cases t with
  | firmware => exact ⟨hv rfl, hfw⟩
  | uboot =>
    show n ≤ maxUbootSize
    by_contra hgt
    simp [sizeRefused, not_le.mp hgt] at h
  | art =>
    show n = artSize
    by_contra hne
    simp [sizeRefused, hne] at h

/-- Where no segment of an upload is taken, the record stays as it is. -/
theorem track_eq_self {s' : State} (h : s'.state = .uploadRequest → s.state = .uploadRequest)
    (hb : ¬ TakesBody s e) : track g s e s' = g := by
  rw [track, if_neg, if_neg hb]
  rintro ⟨hn, hu⟩
  exact absurd (hn.symm.trans (h hu)) (by simp)

/-- A call that takes no segment of an upload and leaves file, type and size alone. -/
theorem tracked_quiet {s' : State} (h : Tracked (s, g)) (hw : Wf s')
    (hs' : s'.state ≠ .uploadRequest) (hpd : s'.postDone = true → s.postDone = true)
    (hfail : s'.uploadFailed = false → s.uploadFailed = false) (hram : s'.ram = s.ram)
    (htype : s'.upgradeType = s.upgradeType)
    (hsize : s'.netBootFileXferSize = s.netBootFileXferSize) : Tracked (s', g) := by
  refine ⟨hw, fun hs => absurd hs hs', fun hs => absurd hs hs', fun hs => absurd hs hs', ?_⟩
  intro hd ho hf
  have hfile := h.pending (hpd hd) ho (hfail hf)
  simp only [FileInRam, hram, htype, hsize] at hfile ⊢
  exact hfile

/-- The search for the data start keeps what is known of the upload. -/
theorem taking_firstchunk {o : ℕ} (ho : o ≤ R.bytes.length) (hs : s.state = .uploadRequest)
    (hb : s.boundaryValue = some R.delim) (hn : s.uploadTotal = R.n)
    (hp : s.dataPointer = loadaddr) (h : e.seg <+: R.bytes.drop o) :
    Taking R (o + e.seg.length) { (httpdFindandstoreFirstchunk s e).1 with
      dataStartFound := (httpdFindandstoreFirstchunk s e).2.1 } := by
  rcases firstchunk_piece h hb with ⟨t, ht⟩ | ⟨p, t, hp1, hp2, hp3, hp4, _, _, heq⟩
  · rw [ht]
    exact ⟨hb, fun _ => hn, fun hf => absurd hf (by simp)⟩
  · rw [heq]
    have hr := receiving_firstchunk (s := { s with upgradeType := t }) hs hb hn hp h ho hp1 hp2 hp3
      hp4
    exact ⟨hr.boundary, fun hf => absurd hf (by simp), fun _ => ⟨_, _, hr⟩⟩

theorem taking_storeBody {o : ℕ} (ht : Taking R o s) (hw : Wf s)
    (h : e.seg <+: R.bytes.drop o) : Taking R (o + e.seg.length) (storeBody s e) := by
  refine ⟨?_, ?_, ?_⟩
  · rw [storeBody_boundaryValue, ht.boundary]
  · rw [storeBody_dataStartFound, storeBody_uploadTotal]
    exact ht.lost
  · rw [storeBody_dataStartFound]
    intro hf
    obtain ⟨x, m, hr⟩ := ht.found hf
    exact ⟨x, m, receiving_storeBody hr hw h⟩

/-- The accepted request and the start of its record. -/
theorem tracked_post {n : ℕ} {bv : List UInt8} (hreq : TakesRequest s e) (hn : contentLength e.appdataZ = some n)
    (hb : boundary e.appdataZ = some bv) {s' : State}
    (hs' : s' = { (httpdFindandstoreFirstchunk (beginUpload s n bv) e).1 with
      dataStartFound := (httpdFindandstoreFirstchunk (beginUpload s n bv) e).2.1 })
    (hw : Wf s') : Tracked (s', track g s e s') := by
  have hstate : s'.state = .uploadRequest := by
    rw [hs']
    rcases firstchunk_cases (beginUpload s n bv) e with ⟨t, ht⟩ | ⟨_, _, _, _, _, _, _, _, _, heq⟩
    · rw [ht]
      rfl
    · rw [heq]
      rfl
  rw [track, if_pos ⟨hreq.2.2, hstate⟩]
  refine ⟨hw, fun _ => rfl, fun _ => by simp, ?_, fun _ ho => absurd ho (by simp)⟩
  rintro _ R c ⟨_, hpre, p, rest, hps, hcolon⟩
  obtain ⟨rfl, -⟩ := List.cons_eq_cons.mp hps
  rw [received_singleton] at hpre ⊢
  obtain rfl := contentLength_piece hpre hcolon hn
  obtain rfl := boundary_piece hpre hb
  have ht := taking_firstchunk (s := beginUpload s R.n R.delim) (Nat.zero_le _) rfl rfl rfl rfl
    (by simpa using hpre : e.seg <+: R.bytes.drop 0)
  rw [Nat.zero_add, ← hs'] at ht
  exact ht

/-- A segment added to the upload in progress. -/
theorem tracked_taken {s' : State} (h : Tracked (s, g)) (hbody : TakesBody s e) (hw : Wf s')
    (hs' : s'.state = .uploadRequest)
    (htaking : ∀ R c, OwnPieces R c (g.taken ++ [(e.conn, e.seg)]) →
      Taking R ((received g.taken).length + e.seg.length) s') :
    Tracked (s', track g s e s') := by
  rw [track, if_neg (by rw [hbody.2.2.1]; simp), if_pos hbody, if_neg (by rw [hs']; simp)]
  refine ⟨hw, fun _ => h.overwritten hbody.2.2.1, fun _ => by simp, ?_, ?_⟩
  · intro _ R c hown
    dsimp only
    rw [received_append, received_singleton, List.length_append]
    exact htaking R c hown
  · intro _ ho
    exact absurd ((h.overwritten hbody.2.2.1).symm.trans ho) (by simp)

/-- A poll changes nothing but the count. -/
theorem tracked_tick (h : Tracked (s, g)) (hw : Wf { s with count := s.count + 1 }) :
    Tracked ({ s with count := s.count + 1 }, g) := by
  refine ⟨hw, h.overwritten, h.nonempty, ?_, h.pending⟩
  intro hs R c hown
  have ht := h.taking hs R c hown
  refine ⟨ht.boundary, ht.lost, fun hf => ?_⟩
  obtain ⟨x, m, hr⟩ := ht.found hf
  exact ⟨x, m, ⟨hr.1, hr.2, hr.3, hr.4, hr.5, hr.6, hr.7, hr.8, hr.9, hr.10⟩⟩

/-- The acknowledgement of the last chunk: no upload is pending any more. -/
theorem tracked_lastAcked (hack : TakesAck s e) (hw : Wf (httpdStateReset (commit s))) :
    Tracked (httpdStateReset (commit s), track g s e (httpdStateReset (commit s))) := by
  have hfile := hack.2.2
  rw [track_eq_self (by simp [httpdStateReset]) fun hb => by simp [hb.2.2.1] at hfile]
  have hdone : (commit s).postDone = false := by
    rw [commit]
    split
    · rfl
    · rename_i hpd
      simpa using hpd
  refine ⟨hw, ?_, ?_, ?_, fun hd => absurd (hd.symm.trans hdone) (by simp)⟩
  all_goals exact fun hs => absurd hs (by simp [httpdStateReset])

/-- The data start, looked for again, is in this segment. -/
theorem tracked_firstFound (h : Tracked (s, g)) (hbody : TakesBody s e)
    (hsm : s.smallFileFlag = false) (hd : s.dataStartFound = false)
    (hf : (httpdFindandstoreFirstchunk s e).2.1 = true) {s' : State}
    (hs' : s' = { (httpdFindandstoreFirstchunk s e).1 with dataStartFound := true })
    (hw : Wf s') : Tracked (s', track g s e s') := by
  have hfirst : s' = { (httpdFindandstoreFirstchunk s e).1 with
      dataStartFound := (httpdFindandstoreFirstchunk s e).2.1 } := by rw [hs', hf]
  refine tracked_taken h hbody hw ?_ fun R c hown => ?_
  · rw [hs']
    rcases firstchunk_cases s e with ⟨t, ht⟩ | ⟨_, _, _, _, _, _, _, _, _, heq⟩
    · rw [ht]
      exact hbody.2.2.1
    · rw [heq]
      exact hbody.2.2.1
  · obtain ⟨hown', hpiece⟩ := ownPieces_concat (h.nonempty hbody.2.2.1) hown
    have ht := h.taking hbody.2.2.1 R c hown'
    rw [hfirst]
    exact taking_firstchunk (received_le hown') hbody.2.2.1 ht.boundary (ht.lost hd)
      (h.wf.fresh hbody.2.2.1 hd hsm).2 hpiece

/-- The data start is not in this segment either: the upload is given up, and the record
says that it has been. -/
theorem tracked_firstLost (h : Tracked (s, g)) (hbody : TakesBody s e) {u : State}
    (hw : Wf (httpdStateReset u)) :
    Tracked (httpdStateReset u, track g s e (httpdStateReset u)) := by
  have hstate : (httpdStateReset u).state = .none := rfl
  rw [track, if_neg (by rw [hbody.2.2.1]; simp), if_pos hbody, if_neg (by rw [hstate]; simp)]
  refine ⟨hw, fun hs => absurd hs (by simp [hstate]), fun hs => absurd hs (by simp [hstate]),
    fun hs => absurd hs (by simp [hstate]), fun _ ho => ?_⟩
  exact absurd ((h.overwritten hbody.2.2.1).symm.trans ho) (by simp)

/-- The end of an upload. -/
theorem tracked_finished (fs : Fs) (h : Tracked (s, g)) (hbody : TakesBody s e)
    (hs : s.smallFileFlag = true ∨ s.dataStartFound = true)
    (hc : bodyComplete (storeBody s e) = true) (hu : Undisturbed (s, g) e)
    (hw : Wf (finishUpload fs (storeBody s e))) :
    Tracked (finishUpload fs (storeBody s e), track g s e (finishUpload fs (storeBody s e))) := by
  have hstate : (finishUpload fs (storeBody s e)).state = .fileRequest := rfl
  have hne : (finishUpload fs (storeBody s e)).state ≠ .uploadRequest := by rw [hstate]; simp
  rw [track, if_neg (by rw [hbody.2.2.1]; simp), if_pos hbody, if_pos hstate]
  refine ⟨hw, fun hu' => absurd hu' hne, fun hu' => absurd hu' hne, fun hu' => absurd hu' hne, ?_⟩
  intro _ _ hf
  rw [finishUpload_uploadFailed] at hf
  obtain ⟨hfound, R, c, hown⟩ := hu.1 ⟨hbody, hs, hc, hf⟩
  obtain ⟨hown', hpiece⟩ := ownPieces_concat (h.nonempty hbody.2.2.1) hown
  obtain ⟨x, m, hr⟩ := (h.taking hbody.2.2.1 R c hown').found hfound
  have hr' := receiving_storeBody hr h.wf hpiece
  obtain ⟨rfl, hend⟩ := (bodyComplete_iff hr').mp hc
  rw [hend] at hr'
  have hlen : (received (g.taken ++ [(e.conn, e.seg)])).length = R.bytes.length := by
    rw [received_append, received_singleton, List.length_append, hend]
  have hok : (storeBody s e).uploadFailed = false := by
    rw [failedAtEnd, Bool.or_eq_false_iff] at hf
    exact hf.1
  obtain ⟨htotal, _, hslice⟩ :=
    hr'.data (wf_storeBody h.wf hbody.2.2.1 (Or.inr hfound)) hok
  have hsize : (finishUpload fs (storeBody s e)).netBootFileXferSize = R.data.length := htotal
  refine ⟨R, c, hown.1, hown.2.1.eq_of_length hlen, hsize, ?_, ?_⟩
  · rw [hsize, finishUpload_ram]
    exact hslice
  · rw [hsize, finishUpload_ram]
    refine passedChecks_of_sizeRefused (htotal ▸ hr'.checked hok) fun hfw => ?_
    rw [failedAtEnd, Bool.or_eq_false_iff, decide_eq_false_iff_not, not_and, not_not, htotal] at hf
    exact hf.2 hfw

end Steps

/-- One call keeps the invariant. -/
theorem tracked_step (fs : Fs) {sg : State × Track} {e : Event} (h : Tracked sg)
    (hu : Undisturbed sg e) : Tracked (trackedStep fs sg e).1 := by
  obtain ⟨s, g⟩ := sg
  have hw := wf_step fs e h.wf
  have hexit := exit_of_appcall fs s e
  rw [trackedStep]
  simp only at hw ⊢
  generalize httpdAppcall fs s e = r at hexit hw ⊢
  -- only a segment taken for an upload in progress touches the record of that upload
  have hfree : s.state ≠ .uploadRequest → ¬ TakesBody s e := fun hs hb => hs hb.2.2.1
  have hplain : ¬ e.Plain → ¬ TakesBody s e := fun hp hb => hp hb.1
  cases hexit with
  | foreign hport =>
    rw [track_eq_self id (hplain fun hp => hport hp.1)]
    exact h
  | closed hp =>
    rw [track_eq_self (by simp [httpdStateReset]) (hplain hp)]
    exact tracked_quiet h hw (by simp [httpdStateReset]) id id rfl rfl rfl
  | tick hp =>
    rw [track_eq_self (by exact id) (hplain hp)]
    exact tracked_tick h hw
  | get hreq =>
    rw [track_eq_self (by simp [servePage]) (hfree (by rw [hreq.2.2]; simp))]
    exact tracked_quiet h hw (by simp [servePage]) id id rfl rfl rfl
  | refuse hreq =>
    rw [track_eq_self (by simp [resetAbort, httpdStateReset]) (hfree (by rw [hreq.2.2]; simp))]
    exact tracked_quiet h hw (by simp [resetAbort, httpdStateReset]) id id rfl rfl rfl
  | refusePost hreq =>
    rw [track_eq_self (by simp [resetAbort, httpdStateReset]) (hfree (by rw [hreq.2.2]; simp))]
    exact tracked_quiet h hw (by simp [resetAbort, httpdStateReset]) id id rfl rfl rfl
  | post hreq n bv _ hn hb => exact tracked_post hreq hn hb rfl hw
  | lastAcked hack => exact tracked_lastAcked hack hw
  | nextChunk hack =>
    rw [track_eq_self (by exact id) (hfree (by rw [hack.2.2]; simp))]
    exact tracked_quiet h hw (by simp [hack.2.2]) id id rfl rfl rfl
  | resend _ hs =>
    rw [track_eq_self id (hfree (by rw [hs]; simp))]
    exact h
  | idle _ hb =>
    rw [track_eq_self id hb]
    exact h
  | firstFound hbody hsm hd hf => exact tracked_firstFound h hbody hsm hd hf rfl hw
  | firstLost hbody => exact tracked_firstLost h hbody hw
  | stored hbody =>
    refine tracked_taken h hbody hw (by rw [storeBody_state, hbody.2.2.1]) fun R c hown => ?_
    obtain ⟨hown', hpiece⟩ := ownPieces_concat (h.nonempty hbody.2.2.1) hown
    exact taking_storeBody (h.taking hbody.2.2.1 R c hown') h.wf hpiece
  | finished hbody hs hc => exact tracked_finished fs h hbody hs hc hu hw

theorem tracked_initial (ram : Ram) : Tracked (initial ram, {}) := by
  refine ⟨wf_initial ram, ?_, ?_, ?_, ?_⟩
  all_goals exact fun h => absurd h (by simp [initial])

/-- Only the acknowledgement of a last chunk makes the server ready for the upgrade,
and only when an upload is pending and not failed. -/
theorem commits_of_ready (fs : Fs) {s : State} {e : Event} (hready : s.readyForUpgrade = false)
    (hset : (httpdAppcall fs s e).1.readyForUpgrade = true) :
    Commits s e ∧ (httpdAppcall fs s e).1 = httpdStateReset
      { s with readyForUpgrade := true, postDone := false, uploadFailed := false } := by
  have hexit := exit_of_appcall fs s e
  generalize httpdAppcall fs s e = r at hexit hset ⊢
  -- every other exit leaves the flag as it is
  have hkeep : ∀ {s' : State} {p : Prop}, s'.readyForUpgrade = s.readyForUpgrade →
      s'.readyForUpgrade = true → p := fun heq hset' =>
    absurd (hset'.symm.trans (heq.trans hready)) (by simp)
  have hfirst : ∀ s' : State,
      (httpdFindandstoreFirstchunk s' e).1.readyForUpgrade = s'.readyForUpgrade := by
    intro s'
    rcases firstchunk_cases s' e with ⟨t, ht⟩ | ⟨_, _, _, _, _, _, _, _, _, heq⟩
    · rw [ht]
    · rw [heq]
      rfl
  cases hexit with
  | lastAcked hack hm =>
    by_cases hpd : s.postDone = true
    · rw [commit, if_pos hpd] at hset ⊢
      have hok : s.uploadFailed = false := by
        simpa [httpdStateReset, hready] using hset
      refine ⟨⟨hack, hm, hpd, hok⟩, ?_⟩
      rw [hok, hready]
      rfl
    · rw [commit, if_neg hpd] at hset
      exact hkeep (show (httpdStateReset s).readyForUpgrade = s.readyForUpgrade from rfl) hset
  | post _ n bv => exact hkeep (hfirst (beginUpload s n bv)) hset
  | firstFound => exact hkeep (hfirst s) hset
  | firstLost => exact hkeep (hfirst s) hset
  | stored => exact hkeep (storeBody_readyForUpgrade s e) hset
  | finished => exact hkeep (storeBody_readyForUpgrade s e) hset
  | _ => exact hkeep rfl hset

/-- A commit is safe: what is pending is the file of the upload completed last. -/
theorem commitSafe_step (fs : Fs) {sg : State × Track} {e : Event} (h : Tracked sg)
    (hu : Undisturbed sg e) : CommitSafe fs sg e := by
  intro hready hset
  obtain ⟨hcommit, heq⟩ := commits_of_ready fs hready hset
  rw [heq]
  exact h.pending hcommit.2.2.1 (hu.2 hcommit) hcommit.2.2.2

/-- **Commit safety.**  In every undisturbed run from the initial globals, whenever
`webfailsafe_ready_for_upgrade` becomes 1, the RAM holds exactly the file of one
completed upload, and the file has passed the checks of the type to be flashed. -/
theorem commitSafe_serve (fs : Fs) (ram : Ram) (es : List Event)
    (h : Run.AllSteps (trackedStep fs) Undisturbed (initial ram, {}) es) :
    Run.AllSteps (trackedStep fs) (CommitSafe fs) (initial ram, {}) es :=
  Run.allSteps_of_invariant Tracked (fun _ _ hs hu => tracked_step fs hs hu)
    (fun _ _ hs hu => commitSafe_step fs hs hu) (tracked_initial ram) h

/-! ### Two runs -/

/-- A small upload in two segments and the acknowledgement of its page. -/
def committedRun : List Event := tinySplit tinyUpload.dataStart ++ [acked 0]

theorem commitSafe_committedRun :
    (serve default (initial fun _ => 0) committedRun).readyForUpgrade = true ∧
      Run.AllSteps (trackedStep default) (CommitSafe default) (initial fun _ => 0, {})
        committedRun := by
  refine ⟨by decide +kernel, commitSafe_serve default (fun _ => 0) committedRun ⟨⟨?_, ?_⟩, ?_⟩⟩
  · exact fun h => absurd h.1 (by decide)
  · exact fun h => absurd h.1 (by decide)
  refine ⟨⟨fun _ => ⟨by decide, tinyUpload, 0, ?_⟩, ?_⟩, ⟨?_, ?_⟩, trivial⟩
  · exact ⟨by decide, by decide, (0, tinyUpload.bytes.take tinyUpload.dataStart),
      [(0, tinyUpload.bytes.drop tinyUpload.dataStart)], by decide, by decide⟩
  · exact fun h => absurd h.1 (by decide)
  · exact fun h => absurd h.1 (by decide)
  · exact fun _ => by decide

/-- The small upload completes and its connection is closed; another upload is
accepted and closed; a page is fetched. -/
def overwrittenRun : List Event :=
  tinySplit tinyUpload.dataStart ++
    [closed 0, newData 1 (postHead "5000") postHead_lt, closed 1,
      newData 1 (ascii "GET / HTTP/1.1\r\n\r\n") getPage_lt]

/-- **An overwritten upload is committed.**  The acknowledgement of the page commits the first
upload, whose byte in RAM has been erased by the second request. -/
theorem commit_overwritten :
    ¬ Run.AllSteps (trackedStep default) (CommitSafe default) (initial fun _ => 0, {})
      (overwrittenRun ++ [acked 1]) := by
  intro hall
  have hlast := (Run.allSteps_append.mp hall).2.1
  obtain ⟨R, c, _, hbytes, _, hslice, _⟩ := hlast (by decide +kernel) (by decide +kernel)
  -- the erased byte would have to be a byte of the upload
  have hdata : (255 : UInt8) ∈ R.data := by
    rw [← hslice]
    decide +kernel
  have hmem : (255 : UInt8) ∈ R.bytes := by
    rw [UploadRequest.bytes, UploadRequest.body]
    simp [hdata]
  rw [← hbytes] at hmem
  exact absurd hmem (by decide +kernel)

end Httpd
