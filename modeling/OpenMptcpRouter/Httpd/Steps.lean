/-
What one call of `httpd_appcall` can do.

`Exit fs s e r` lists the exits of `httpd_appcall` in state `s` on event `e`, with
the guards on the way to each, and `exit_of_appcall` says that every call takes one
of them.  All invariants of the server are proved by cases on `Exit`; nothing
after this module unfolds `httpdAppcall` for a universally quantified event.

Which branch a call takes depends on the event, `hs->state` and `hs->count` alone:
`Branches.select` is that choice, and `Branches.select_lockstep` goes through it once for
all theorems that compare calls branch by branch.

`firstchunk_cases` does the same for `httpd_findandstore_firstchunk`, and
`firstchunk_stop_le` keeps its copy inside the segment.
-/
import OpenMptcpRouter.Httpd.Appcall

namespace Httpd

open CString Memory Search

/-- The call gets past the connection events to the data branches. -/
def Event.Plain (e : Event) : Prop :=
  e.lport = 80 ∧ e.flags.close = false ∧ e.flags.abort = false ∧ e.flags.timedout = false ∧
    e.flags.poll = false ∧ e.flags.connected = false

/-- The call takes its segment as a request. -/
def TakesRequest (s : State) (e : Event) : Prop :=
  e.Plain ∧ e.flags.newdata = true ∧ s.state = .none

/-- The call takes its segment as a piece of an upload. -/
def TakesBody (s : State) (e : Event) : Prop :=
  e.Plain ∧ e.flags.newdata = true ∧ s.state = .uploadRequest ∧ e.flags.ackdata = false ∧
    e.flags.rexmit = false

/-- The call sees an acknowledgement. -/
def TakesAck (s : State) (e : Event) : Prop :=
  e.Plain ∧ e.flags.ackdata = true ∧ s.state = .fileRequest

/-- The call only counts a poll. -/
def Event.Ticks (e : Event) : Prop :=
  e.lport = 80 ∧ e.flags.close = false ∧ e.flags.abort = false ∧ e.flags.timedout = false ∧
    e.flags.poll = true

instance (e : Event) : Decidable e.Plain := by unfold Event.Plain; infer_instance
instance (e : Event) : Decidable e.Ticks := by unfold Event.Ticks; infer_instance
instance (s : State) (e : Event) : Decidable (TakesRequest s e) := by
  unfold TakesRequest; infer_instance
instance (s : State) (e : Event) : Decidable (TakesBody s e) := by unfold TakesBody; infer_instance
instance (s : State) (e : Event) : Decidable (TakesAck s e) := by unfold TakesAck; infer_instance

/-! ### The branches of a call -/

/-- One value for each branch of `httpd_appcall`. -/
structure Branches (ρ : Type) where
  foreign : ρ
  closed : ρ
  aborted : ρ
  givenUp : ρ
  tick : ρ
  connected : ρ
  request : ρ
  acked : ρ
  rexmit : ρ
  body : ρ
  idle : ρ

/-- The branch an event takes, given `hs->state` and `hs->count`. -/
def Branches.select {ρ : Type} (b : Branches ρ) (e : Event) (state : ReqState) (count : ℕ) : ρ :=
  if e.lport = 80 then
    if e.flags.close then b.closed
    else if e.flags.abort || e.flags.timedout then b.aborted
    else if e.flags.poll then
      if 100 ≤ count then b.givenUp else b.tick
    else if e.flags.connected then b.connected
    else if e.flags.newdata && state = .none then b.request
    else if e.flags.ackdata then b.acked
    else if e.flags.rexmit then b.rexmit
    else if e.flags.newdata then b.body
    else b.idle
  else b.foreign

/-- **Two calls in the same state**, on the same side of the poll limit, take the same
branch; so what holds of each pair of branches holds of the calls. -/
theorem Branches.select_lockstep {ρ ρ' : Type} {b : Branches ρ} {b' : Branches ρ'} {e : Event}
    {state : ReqState} {count count' : ℕ} (P : ρ → ρ' → Prop)
    (hlimit : e.Ticks → (100 ≤ count' ↔ 100 ≤ count))
    (hforeign : e.lport ≠ 80 → P b.foreign b'.foreign)
    (hclosed : ¬ e.Plain → P b.closed b'.closed)
    (haborted : ¬ e.Plain → P b.aborted b'.aborted)
    (hgivenUp : ¬ e.Plain → P b.givenUp b'.givenUp)
    (htick : ¬ e.Plain → count < 100 → P b.tick b'.tick)
    (hconnected : ¬ e.Plain → P b.connected b'.connected)
    (hrequest : e.Plain → e.flags.newdata = true → state = .none → P b.request b'.request)
    (hacked : e.Plain → e.flags.ackdata = true → P b.acked b'.acked)
    (hrexmit : e.Plain → e.flags.rexmit = true → P b.rexmit b'.rexmit)
    (hbody : e.Plain → e.flags.newdata = true → e.flags.ackdata = false →
      e.flags.rexmit = false → P b.body b'.body)
    (hidle : e.Plain → e.flags.newdata = false → P b.idle b'.idle) :
    P (b.select e state count) (b'.select e state count') := by
  rw [select, select]
  by_cases hport : e.lport = 80
  swap
  · rw [if_neg hport, if_neg hport]
    exact hforeign hport
  rw [if_pos hport, if_pos hport]
  by_cases hclose : e.flags.close = true
  · rw [if_pos hclose, if_pos hclose]
    exact hclosed fun h => by simp [h.2.1] at hclose
  rw [if_neg hclose, if_neg hclose]
  by_cases habort : (e.flags.abort || e.flags.timedout) = true
  · rw [if_pos habort, if_pos habort]
    exact haborted fun h => by simp [h.2.2.1, h.2.2.2.1] at habort
  rw [if_neg habort, if_neg habort]
  simp only [Bool.or_eq_true, not_or, Bool.not_eq_true] at hclose habort
  by_cases hpoll : e.flags.poll = true
  · rw [if_pos hpoll, if_pos hpoll]
    have hplain : ¬ e.Plain := fun h => by simp [h.2.2.2.2.1] at hpoll
    have hiff := hlimit ⟨hport, hclose, habort.1, habort.2, hpoll⟩
    by_cases hc : 100 ≤ count
    · rw [if_pos hc, if_pos (hiff.mpr hc)]
      exact hgivenUp hplain
    · rw [if_neg hc, if_neg (hc ∘ hiff.mp)]
      exact htick hplain (by omega)
  rw [if_neg hpoll, if_neg hpoll]
  by_cases hconn : e.flags.connected = true
  · rw [if_pos hconn, if_pos hconn]
    exact hconnected fun h => by simp [h.2.2.2.2.2] at hconn
  rw [if_neg hconn, if_neg hconn]
  simp only [Bool.not_eq_true] at hpoll hconn
  have hplain : e.Plain := ⟨hport, hclose, habort.1, habort.2, hpoll, hconn⟩
  -- from here on the request state decides what new data are taken for
  by_cases hreq : (e.flags.newdata && decide (state = .none)) = true
  · rw [if_pos hreq, if_pos hreq]
    simp only [Bool.and_eq_true, decide_eq_true_eq] at hreq
    exact hrequest hplain hreq.1 hreq.2
  rw [if_neg hreq, if_neg hreq]
  by_cases hack : e.flags.ackdata = true
  · rw [if_pos hack, if_pos hack]
    exact hacked hplain hack
  rw [if_neg hack, if_neg hack]
  by_cases hrex : e.flags.rexmit = true
  · rw [if_pos hrex, if_pos hrex]
    exact hrexmit hplain hrex
  rw [if_neg hrex, if_neg hrex]
  simp only [Bool.not_eq_true] at hack hrex
  by_cases hnew : e.flags.newdata = true
  · rw [if_pos hnew, if_pos hnew]
    exact hbody hplain hnew hack hrex
  · rw [if_neg hnew, if_neg hnew]
    exact hidle hplain (by simpa using hnew)

/-- The branches of `httpdAppcall`. -/
def branches (fs : Fs) (s : State) (e : Event) : Branches (State × Out) where
  foreign := (s, { reply := .abort })
  closed := (httpdStateReset s, { reply := .close })
  aborted := resetAbort s
  givenUp := resetAbort s
  tick := ({ s with count := s.count + 1 }, {})
  connected := (httpdStateReset s, {})
  request := handleRequest fs s e
  acked := handleAcked s e
  rexmit := handleRexmit s e
  body := handleBody fs s e
  idle := (s, {})

theorem httpdAppcall_eq (fs : Fs) (s : State) (e : Event) :
    httpdAppcall fs s e = (branches fs s e).select e s.state s.count := rfl

/-! ### The exits -/

/-- The exits of `httpd_appcall`. -/
inductive Exit (fs : Fs) (s : State) (e : Event) : State × Out → Prop
  | foreign (h : e.lport ≠ 80) : Exit fs s e (s, { reply := .abort })
  | closed (h : ¬ e.Plain) (reply : Reply) : Exit fs s e (httpdStateReset s, { reply := reply })
  | tick (h : ¬ e.Plain) (hc : s.count < 100) : Exit fs s e ({ s with count := s.count + 1 }, {})
  | get (h : TakesRequest s e) (name : List UInt8) (hget : isGet e.appdata = true)
      (hn : requestName e.appdata = some name) :
      Exit fs s e (servePage s (requestFile fs name),
        { send := some (chunk (servePage s (requestFile fs name)) e.mss) })
  | refuse (h : TakesRequest s e) : Exit fs s e (resetAbort s)
  | refusePost (h : TakesRequest s e) (n : ℕ) (hpost : isPost e.appdata = true)
      (hn : contentLength e.appdataZ = some n) :
      Exit fs s e
        (resetAbort { s with smallFileFlag := s.smallFileFlag || decide (n < smallFileSize) })
  | post (h : TakesRequest s e) (n : ℕ) (bv : List UInt8) (hpost : isPost e.appdata = true)
      (hn : contentLength e.appdataZ = some n) (hb : boundary e.appdataZ = some bv) :
      Exit fs s e
        ({ (httpdFindandstoreFirstchunk (beginUpload s n bv) e).1 with
            dataStartFound := (httpdFindandstoreFirstchunk (beginUpload s n bv) e).2.1 },
          { stores := (loadaddr, maxUbootSize) ::
              (httpdFindandstoreFirstchunk (beginUpload s n bv) e).2.2 })
  | lastAcked (h : TakesAck s e) (hm : s.upload ≤ e.mss) :
      Exit fs s e (httpdStateReset (commit s), { reply := .close })
  | nextChunk (h : TakesAck s e) (hm : e.mss < s.upload) :
      Exit fs s e
        ({ s with dataptr := s.dataptr.drop e.len, upload := u32 ((s.upload : ℤ) - e.len) },
          { send := some (chunk { s with
              dataptr := s.dataptr.drop e.len, upload := u32 ((s.upload : ℤ) - e.len) } e.mss) })
  | resend (h : e.Plain) (hs : s.state = .fileRequest) :
      Exit fs s e (s, { send := some (chunk s e.mss) })
  | idle (h : e.Plain) (hb : ¬ TakesBody s e) : Exit fs s e (s, {})
  | firstFound (h : TakesBody s e) (hs : s.smallFileFlag = false) (hd : s.dataStartFound = false)
      (hf : (httpdFindandstoreFirstchunk s e).2.1 = true) :
      Exit fs s e ({ (httpdFindandstoreFirstchunk s e).1 with dataStartFound := true },
        { stores := (httpdFindandstoreFirstchunk s e).2.2 })
  | firstLost (h : TakesBody s e) (hs : s.smallFileFlag = false) (hd : s.dataStartFound = false)
      (hf : (httpdFindandstoreFirstchunk s e).2.1 = false) :
      Exit fs s e (httpdStateReset (httpdFindandstoreFirstchunk s e).1,
        { reply := .abort, stores := (httpdFindandstoreFirstchunk s e).2.2 })
  | stored (h : TakesBody s e) (hs : s.smallFileFlag = true ∨ s.dataStartFound = true)
      (hc : bodyComplete (storeBody s e) = false) :
      Exit fs s e (storeBody s e,
        { stores := if s.uploadFailed then [] else [(s.dataPointer, e.seg.length)] })
  | finished (h : TakesBody s e) (hs : s.smallFileFlag = true ∨ s.dataStartFound = true)
      (hc : bodyComplete (storeBody s e) = true) :
      Exit fs s e (finishUpload fs (storeBody s e),
        { send := some (chunk (finishUpload fs (storeBody s e)) e.mss)
          stores := if s.uploadFailed then [] else [(s.dataPointer, e.seg.length)] })

theorem handleRequest_exit (fs : Fs) {s : State} {e : Event} (h : TakesRequest s e) :
    Exit fs s e (handleRequest fs s e) := by
  rw [handleRequest]
  by_cases hg : isGet e.appdata = true
  · rw [if_pos hg, handleGet]
    rcases hn : requestName e.appdata with _ | name
    · exact .refuse h
    · exact .get h name hg hn
  · rw [if_neg hg]
    by_cases hp : isPost e.appdata = true
    · rw [if_pos hp, handlePost]
      rcases hn : contentLength e.appdataZ with _ | n
      · exact .refuse h
      · rcases hb : boundary e.appdataZ with _ | bv
        · exact .refusePost h n hp hn
        · by_cases hm : e.malloc = true
          · simp only [hm, if_true]
            exact .post h n bv hp hn hb
          · simp only [hm]
            exact .refusePost h n hp hn
    · rw [if_neg hp]
      exact .refuse h

theorem handleAcked_exit (fs : Fs) {s : State} {e : Event} (h : e.Plain)
    (ha : e.flags.ackdata = true) : Exit fs s e (handleAcked s e) := by
  rw [handleAcked]
  by_cases hs : s.state = .fileRequest
  · rw [if_pos hs]
    by_cases hm : s.upload ≤ e.mss
    · rw [if_pos hm]
      exact .lastAcked ⟨h, ha, hs⟩ hm
    · rw [if_neg hm]
      exact .nextChunk ⟨h, ha, hs⟩ (by omega)
  · rw [if_neg hs]
    refine .idle h fun hb => ?_
    rw [hb.2.2.2.1] at ha
    exact absurd ha (by simp)

theorem handleBody_exit (fs : Fs) {s : State} {e : Event} (h : TakesBody s e) :
    Exit fs s e (handleBody fs s e) := by
  rw [handleBody, if_pos h.2.2.1]
  by_cases hf : (!s.smallFileFlag && !s.dataStartFound) = true
  · rw [if_pos hf]
    simp only [Bool.and_eq_true, Bool.not_eq_true'] at hf
    by_cases hfound : (httpdFindandstoreFirstchunk s e).2.1 = true
    · simp only [hfound, if_true]
      exact .firstFound h hf.1 hf.2 hfound
    · simp only [hfound]
      exact .firstLost h hf.1 hf.2 (by simpa using hfound)
  · rw [if_neg hf]
    have hs : s.smallFileFlag = true ∨ s.dataStartFound = true := by
      rcases hsm : s.smallFileFlag with _ | _
      · rcases hds : s.dataStartFound with _ | _
        · simp [hsm, hds] at hf
        · exact Or.inr rfl
      · exact Or.inl rfl
    by_cases hc : bodyComplete (storeBody s e) = true
    · simp only [hc, if_true]
      exact .finished h hs hc
    · simp only [hc]
      exact .stored h hs (by simpa using hc)

theorem handleRexmit_exit (fs : Fs) {s : State} {e : Event} (h : e.Plain)
    (hr : e.flags.rexmit = true) : Exit fs s e (handleRexmit s e) := by
  rw [handleRexmit]
  by_cases hs : s.state = .fileRequest
  · rw [if_pos hs]
    exact .resend h hs
  · rw [if_neg hs]
    refine .idle h fun hb => ?_
    rw [hb.2.2.2.2] at hr
    exact absurd hr (by simp)

/-- Every call of `httpd_appcall` takes one of its exits. -/
theorem exit_of_appcall (fs : Fs) (s : State) (e : Event) :
    Exit fs s e (httpdAppcall fs s e) := by
  rw [httpdAppcall_eq]
  refine @Branches.select_lockstep _ _ _ (branches fs s e) e s.state s.count s.count
    (fun r _ => Exit fs s e r) (fun _ => Iff.rfl) .foreign (fun h => .closed h _) (fun h => .closed h _)
    (fun h => .closed h _) .tick (fun h => .closed h _)
    (fun h hnew hs => handleRequest_exit fs ⟨h, hnew, hs⟩) (handleAcked_exit fs)
    (handleRexmit_exit fs) (fun h hnew hack hrex => ?_) (fun h hnew => ?_)
  · by_cases hs : s.state = .uploadRequest
    · exact handleBody_exit fs ⟨h, hnew, hs, hack, hrex⟩
    · rw [branches, handleBody, if_neg hs]
      exact .idle h fun hb => hs hb.2.2.1
  · refine .idle h fun hb => ?_
    rw [hb.2.1] at hnew
    exact absurd hnew (by simp)

/-! ### Two calls in lockstep -/

/-- **The lockstep rule.**  Two states in the same request state, on the same side of
the poll limit, take the same branch of `httpd_appcall`; so what holds of each pair of
branches holds of the calls. -/
theorem appcall_lockstep (fs : Fs) {s t : State} {e : Event}
    (P : State × Out → State × Out → Prop) (hstate : t.state = s.state)
    (hlimit : e.Ticks → (100 ≤ t.count ↔ 100 ≤ s.count))
    (hsame : ∀ reply, P (s, { reply := reply }) (t, { reply := reply }))
    (hreset : ∀ reply,
      P (httpdStateReset s, { reply := reply }) (httpdStateReset t, { reply := reply }))
    (htick : P ({ s with count := s.count + 1 }, {}) ({ t with count := t.count + 1 }, {}))
    (hsend : s.state = .fileRequest →
      P (s, { send := some (chunk s e.mss) }) (t, { send := some (chunk t e.mss) }))
    (hreq : TakesRequest s e → P (handleRequest fs s e) (handleRequest fs t e))
    (hack : P (handleAcked s e) (handleAcked t e))
    (hbody : TakesBody s e → P (handleBody fs s e) (handleBody fs t e)) :
    P (httpdAppcall fs s e) (httpdAppcall fs t e) := by
  rw [httpdAppcall_eq, httpdAppcall_eq, hstate]
  refine Branches.select_lockstep P hlimit (fun _ => hsame .abort) (fun _ => hreset .close)
    (fun _ => hreset .abort) (fun _ => hreset .abort) (fun _ _ => htick) (fun _ => hreset .none)
    (fun h hnew hs => hreq ⟨h, hnew, hs⟩) (fun _ _ => hack) (fun _ _ => ?_)
    (fun h hnew hackd hrex => ?_) (fun _ _ => hsame .none)
  · rw [branches, branches, handleRexmit, handleRexmit, hstate]
    by_cases hs : s.state = .fileRequest
    · rw [if_pos hs, if_pos hs]
      exact hsend hs
    · rw [if_neg hs, if_neg hs]
      exact hsame .none
  · by_cases hs : s.state = .uploadRequest
    · exact hbody ⟨h, hnew, hs, hackd, hrex⟩
    · rw [branches, branches, handleBody, handleBody, hstate, if_neg hs, if_neg hs]
      exact hsame .none

/-! ### What storing a segment changes -/

section StoreBody

variable (s : State) (e : Event)

@[simp] theorem storeBody_state : (storeBody s e).state = s.state := by
  rw [storeBody]
  split <;> rfl

@[simp] theorem storeBody_dataStartFound : (storeBody s e).dataStartFound = s.dataStartFound := by
  rw [storeBody]
  split <;> rfl

@[simp] theorem storeBody_smallFileFlag : (storeBody s e).smallFileFlag = s.smallFileFlag := by
  rw [storeBody]
  split <;> rfl

@[simp] theorem storeBody_boundaryValue : (storeBody s e).boundaryValue = s.boundaryValue := by
  rw [storeBody]
  split <;> rfl

@[simp] theorem storeBody_uploadTotal : (storeBody s e).uploadTotal = s.uploadTotal := by
  rw [storeBody]
  split <;> rfl

@[simp] theorem storeBody_uploadFailed : (storeBody s e).uploadFailed = s.uploadFailed := by
  rw [storeBody]
  split <;> rfl

@[simp] theorem storeBody_upgradeType : (storeBody s e).upgradeType = s.upgradeType := by
  rw [storeBody]
  split <;> rfl

@[simp] theorem storeBody_postDone : (storeBody s e).postDone = s.postDone := by
  rw [storeBody]
  split <;> rfl

@[simp] theorem storeBody_readyForUpgrade : (storeBody s e).readyForUpgrade = s.readyForUpgrade := by
  rw [storeBody]
  split <;> rfl

@[simp] theorem storeBody_netBootFileXferSize : (storeBody s e).netBootFileXferSize = s.netBootFileXferSize := by
  rw [storeBody]
  split <;> rfl

theorem storeBody_upload : (storeBody s e).upload = u32 (s.upload + e.seg.length) := by
  rw [storeBody]
  split <;> rfl

theorem storeBody_ram (h : s.uploadFailed = false) :
    (storeBody s e).ram = store ramSize s.ram s.dataPointer e.seg := by
  simp [storeBody, h]

theorem storeBody_dataPointer (h : s.uploadFailed = false) :
    (storeBody s e).dataPointer = (s.dataPointer + e.seg.length) % ramSize := by
  simp [storeBody, h]

end StoreBody

/-! ### The first chunk -/

/-- What `httpd_findandstore_firstchunk` finds: the type, and the boundary with its
offset and the offset of the empty line behind it. -/
def searchFirstchunk (boundaryValue : Option (List UInt8)) (e : Event) :
    Option (UpgradeType × Option (List UInt8 × ℕ × ℕ)) := do
  let bv ← boundaryValue
  let start ← strstr e.appdataZ 0 bv
  let t ← upgradeTypeAt e.appdataZ start
  match strstr e.appdataZ start eol2 with
  | none => some (t, none)
  | some stop => some (t, if stop < e.seg.length then some (bv, start, stop) else none)

/-- The outcome of the search decides what is changed. -/
theorem firstchunk_eq (s : State) (e : Event) :
    httpdFindandstoreFirstchunk s e =
      match searchFirstchunk s.boundaryValue e with
      | none => (s, false, [])
      | some (t, none) => ({ s with upgradeType := t }, false, [])
      | some (t, some (bv, start, stop)) =>
        (storeFirstchunk { s with upgradeType := t } e bv start (stop + 4), true,
          [(s.dataPointer,
            (storeFirstchunk { s with upgradeType := t } e bv start (stop + 4)).upload)]) := by
  rw [httpdFindandstoreFirstchunk, searchFirstchunk]
  split
  · rename_i hbv
    rw [hbv]
    rfl
  rename_i bv hbv
  rw [hbv]
  split
  · rename_i hstart
    simp [hstart]
  rename_i start hstart
  split
  · rename_i ht
    simp [hstart, ht]
  rename_i t ht
  split
  · rename_i hstop
    simp [hstart, ht, hstop]
  rename_i stop hstop
  by_cases hlt : stop < e.seg.length
  · simp [hstart, ht, hstop, hlt]
  · simp [hstart, ht, hstop, hlt]

theorem searchFirstchunk_eq_some {boundaryValue : Option (List UInt8)} {e : Event}
    {t : UpgradeType} {bv : List UInt8} {start stop : ℕ}
    (h : searchFirstchunk boundaryValue e = some (t, some (bv, start, stop))) :
    boundaryValue = some bv ∧ strstr e.appdataZ 0 bv = some start ∧
      upgradeTypeAt e.appdataZ start = some t ∧ strstr e.appdataZ start eol2 = some stop ∧
      stop < e.seg.length := by
  rw [searchFirstchunk, Option.bind_eq_bind, Option.bind_eq_some_iff] at h
  obtain ⟨bv', hbv, h⟩ := h
  rw [Option.bind_eq_bind, Option.bind_eq_some_iff] at h
  obtain ⟨start', hstart, h⟩ := h
  rw [Option.bind_eq_bind, Option.bind_eq_some_iff] at h
  obtain ⟨t', ht, h⟩ := h
  split at h
  · simp at h
  rename_i stop' hstop
  by_cases hlt : stop' < e.seg.length
  · rw [if_pos hlt] at h
    simp only [Option.some.injEq, Prod.mk.injEq] at h
    obtain ⟨rfl, rfl, rfl, rfl⟩ := h
    exact ⟨hbv, hstart, ht, hstop, hlt⟩
  · rw [if_neg hlt] at h
    simp at h

/-- `httpd_findandstore_firstchunk` returns 1 exactly when the segment holds the
boundary, a type name and the end of the part headers; otherwise it changes at
most the upgrade type. -/
theorem firstchunk_cases (s : State) (e : Event) :
    (∃ t, httpdFindandstoreFirstchunk s e = ({ s with upgradeType := t }, false, [])) ∨
    ∃ bv start t stop, s.boundaryValue = some bv ∧ strstr e.appdataZ 0 bv = some start ∧
      upgradeTypeAt e.appdataZ start = some t ∧ strstr e.appdataZ start eol2 = some stop ∧
      stop < e.seg.length ∧
      httpdFindandstoreFirstchunk s e =
        (storeFirstchunk { s with upgradeType := t } e bv start (stop + 4), true,
          [(s.dataPointer,
            (storeFirstchunk { s with upgradeType := t } e bv start (stop + 4)).upload)]) := by
  rw [firstchunk_eq]
  rcases hsearch : searchFirstchunk s.boundaryValue e with _ | ⟨t, _ | ⟨bv, start, stop⟩⟩
  · exact Or.inl ⟨s.upgradeType, rfl⟩
  · exact Or.inl ⟨t, rfl⟩
  · obtain ⟨hbv, hstart, ht, hstop, hlt⟩ := searchFirstchunk_eq_some hsearch
    exact Or.inr ⟨bv, start, t, stop, hbv, hstart, ht, hstop, hlt, rfl⟩

/-- The search for the first chunk leaves the boundary alone. -/
theorem firstchunk_boundaryValue (s : State) (e : Event) :
    (httpdFindandstoreFirstchunk s e).1.boundaryValue = s.boundaryValue := by
  rcases firstchunk_cases s e with ⟨t, ht⟩ | ⟨bv, start, t, stop, _, _, _, _, _, heq⟩
  · rw [ht]
  · rw [heq]
    rfl

/-- It does not end the upload either. -/
theorem firstchunk_state (s : State) (e : Event) :
    (httpdFindandstoreFirstchunk s e).1.state = s.state := by
  rcases firstchunk_cases s e with ⟨t, ht⟩ | ⟨bv, start, t, stop, _, _, _, _, _, heq⟩
  · rw [ht]
  · rw [heq]
    rfl

theorem Event.getElem?_appdataZ_seg (e : Event) : e.appdataZ[e.seg.length]? = some 0 := by
  rw [Event.appdataZ, List.getElem?_append_right le_rfl]
  simp

/-- A pattern seen from inside the segment ends inside the segment: the terminator
stops the search. -/
theorem strstr_appdataZ_le {e : Event} {k i : ℕ} {pat : List UInt8} (hp : pat ≠ [])
    (hz : (0 : UInt8) ∉ pat) (hk : k ≤ e.seg.length) (h : strstr e.appdataZ k pat = some i) :
    k ≤ i ∧ i + pat.length ≤ e.seg.length := by
  obtain ⟨hki, hocc, hfree, _⟩ := (strstr_eq_some hp hz).mp h
  refine ⟨hki, ?_⟩
  by_contra hlen
  by_cases hi : e.seg.length < i
  · exact hfree e.seg.length hk hi e.getElem?_appdataZ_seg
  · have hat := occursAt_iff_getElem?.mp hocc (e.seg.length - i) (by omega)
    rw [show i + (e.seg.length - i) = e.seg.length by omega, e.getElem?_appdataZ_seg] at hat
    exact hz (List.mem_of_getElem? hat.symm)

/-! What the server searches for is never empty and has no NUL in it. -/

theorem eol_ne_nil : eol ≠ [] := by decide

theorem zero_notMem_eol : (0 : UInt8) ∉ eol := by decide

theorem eol2_ne_nil : eol2 ≠ [] := by decide

theorem zero_notMem_eol2 : (0 : UInt8) ∉ eol2 := by decide

theorem lengthName_ne_nil : ascii "Content-Length:" ≠ [] := by decide

theorem zero_notMem_lengthName : (0 : UInt8) ∉ ascii "Content-Length:" := by decide

theorem boundaryName_ne_nil : ascii "boundary=" ≠ [] := by decide

theorem zero_notMem_boundaryName : (0 : UInt8) ∉ ascii "boundary=" := by decide

theorem length_boundaryName : (ascii "boundary=").length = 9 := by decide

/-- The data of the first chunk start inside the segment. -/
theorem firstchunk_stop_le {e : Event} {bv : List UInt8} {start stop : ℕ} (hp : bv ≠ [])
    (hz : (0 : UInt8) ∉ bv) (hstart : strstr e.appdataZ 0 bv = some start)
    (hstop : strstr e.appdataZ start eol2 = some stop) :
    start ≤ stop ∧ stop + 4 ≤ e.seg.length := by
  have h1 := strstr_appdataZ_le hp hz (Nat.zero_le _) hstart
  exact strstr_appdataZ_le eol2_ne_nil zero_notMem_eol2 (by omega) hstop

end Httpd
