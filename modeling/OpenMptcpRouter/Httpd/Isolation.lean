/-
Two connections at once.

uIP admits two connections, but `hs` always points to the one `appstate`, so every
call works on the request of whichever connection used the server last.  Two
connections do not disturb each other only if they take turns: `Serial a` says that
a call finds the server between two requests or in a request of its own connection,
and that the page of another connection does not commit the upload of `a`.

The state is split into the request in progress (`request`) and what outlives it
(`kept`).  A run of two connections is compared with the runs of each of them
alone: `Split` relates the three states, and `split_uploader`, `split_getter` say
that one call of either connection keeps them related.

* `isolation_of_serial` — in every interleaving in which the connections take turns,
  each of them sees what it sees when the two run one after the other;
* `isolation_lost` — a connection that is merely opened ends the upload of another.
-/
import OpenMptcpRouter.Httpd.History

namespace Httpd

open CString Memory Search

/-! ### What a connection sees -/

/-- What a call shows to its connection, and the upload it completes. -/
structure Seen where
  reply : Reply
  send : Option (List UInt8)
  completed : Option (ℕ × UpgradeType × List UInt8)
  deriving DecidableEq

/-- The call with its connection and what it shows. -/
def seenStep (fs : Fs) (s : State) (e : Event) : State × (ℕ × Seen) :=
  let r := httpdAppcall fs s e
  (r.1, e.conn,
    { reply := r.2.reply
      send := r.2.send
      completed :=
        if !s.postDone && r.1.postDone then
          some (r.1.netBootFileXferSize, r.1.upgradeType,
            slice ramSize r.1.ram loadaddr r.1.netBootFileXferSize)
        else none })

/-- What connection `c` sees of a run. -/
def seenOn (fs : Fs) (c : ℕ) (s : State) (es : List Event) : List Seen :=
  ((Run.outputs (seenStep fs) s es).filter fun o => o.1 = c).map Prod.snd

/-- The events of connection `c`. -/
def eventsOf (c : ℕ) (es : List Event) : List Event := es.filter fun e => e.conn = c

theorem seenOn_cons (fs : Fs) (c : ℕ) (s : State) (e : Event) (es : List Event) :
    seenOn fs c s (e :: es) =
      if e.conn = c then (seenStep fs s e).2.2 :: seenOn fs c (httpdAppcall fs s e).1 es
      else seenOn fs c (httpdAppcall fs s e).1 es := by
  rw [seenOn, Run.outputs_cons, List.filter_cons]
  by_cases hc : e.conn = c
  · rw [if_pos hc, if_pos (by simpa [seenStep] using hc)]
    rfl
  · rw [if_neg hc, if_neg (by simpa [seenStep] using hc)]
    rfl

theorem seenOn_append (fs : Fs) (c : ℕ) (s : State) (es es' : List Event) :
    seenOn fs c s (es ++ es') = seenOn fs c s es ++ seenOn fs c (serve fs s es) es' := by
  induction es generalizing s with
  | nil => rfl
  | cons e es ih =>
    rw [List.cons_append, seenOn_cons, seenOn_cons, ih]
    split <;> rfl

theorem seenOn_eq_nil (fs : Fs) {c : ℕ} {s : State} {es : List Event}
    (h : ∀ e ∈ es, e.conn ≠ c) : seenOn fs c s es = [] := by
  induction es generalizing s with
  | nil => rfl
  | cons e es ih =>
    rw [seenOn_cons, if_neg (h e List.mem_cons_self)]
    exact ih fun e' he' => h e' (List.mem_cons_of_mem e he')

/-! ### The request and what outlives it -/

/-- The state of the request in progress. -/
structure Request where
  state : ReqState
  dataptr : List UInt8
  upload : ℕ
  uploadTotal : ℕ
  dataStartFound : Bool
  boundaryValue : Option (List UInt8)

/-- The request in progress. -/
def State.request (s : State) : Request :=
  ⟨s.state, s.dataptr, s.upload, s.uploadTotal, s.dataStartFound, s.boundaryValue⟩

/-- The state that outlives a request. -/
structure Kept where
  postDone : Bool
  uploadFailed : Bool
  smallFileFlag : Bool
  readyForUpgrade : Bool
  upgradeType : UpgradeType
  netBootFileXferSize : ℕ
  dataPointer : ℕ
  ram : Ram

/-- What outlives the request in progress. -/
def State.kept (s : State) : Kept :=
  ⟨s.postDone, s.uploadFailed, s.smallFileFlag, s.readyForUpgrade, s.upgradeType,
    s.netBootFileXferSize, s.dataPointer, s.ram⟩

/-- The same request over other kept state and another poll count. -/
def State.over (s : State) (k : Kept) (n : ℕ) : State :=
  { s with
    count := n
    postDone := k.postDone
    uploadFailed := k.uploadFailed
    smallFileFlag := k.smallFileFlag
    readyForUpgrade := k.readyForUpgrade
    upgradeType := k.upgradeType
    netBootFileXferSize := k.netBootFileXferSize
    dataPointer := k.dataPointer
    ram := k.ram }

theorem eq_over {s t : State} (h : s.request = t.request) : t = s.over t.kept t.count := by
  simp only [State.request, Request.mk.injEq] at h
  obtain ⟨h1, h2, h3, h4, h5, h6⟩ := h
  cases t
  simp only [State.over, State.kept, State.mk.injEq] at *
  simp [h1, h2, h3, h4, h5, h6]

/-- Between two requests there is nothing of a request left. -/
theorem request_eq_of_none {s t : State} (hs : Wf s) (ht : Wf t) (hns : s.state = .none)
    (hnt : t.state = .none) : s.request = t.request := by
  have hfound : ∀ u : State, Wf u → u.state = .none → u.dataStartFound = false := by
    intro u hu hn
    by_contra hf
    exact absurd (hn.symm.trans (hu.found (by simpa using hf))) (by simp)
  have hb : ∀ u : State, Wf u → u.state = .none → u.boundaryValue = none := by
    intro u hu hn
    have := (not_congr hu.boundary_iff).mpr (by rw [hn]; simp)
    simpa using this
  simp only [State.request, Request.mk.injEq]
  exact ⟨hns.trans hnt.symm, (hs.clear hns).1.trans (ht.clear hnt).1.symm,
    (hs.idle hns).trans (ht.idle hnt).symm, (hs.clear hns).2.trans (ht.clear hnt).2.symm,
    (hfound s hs hns).trans (hfound t ht hnt).symm, (hb s hs hns).trans (hb t ht hnt).symm⟩

section Congr

variable {s : State} {e : Event} (fs : Fs)

theorem storeBody_over (n : ℕ) :
    storeBody (s.over s.kept n) e = (storeBody s e).over (storeBody s e).kept n := by
  rw [storeBody, storeBody, show (s.over s.kept n).uploadFailed = s.uploadFailed from rfl]
  split
  · rfl
  · rfl

theorem firstchunk_over (n : ℕ) :
    httpdFindandstoreFirstchunk (s.over s.kept n) e =
      ((httpdFindandstoreFirstchunk s e).1.over (httpdFindandstoreFirstchunk s e).1.kept n,
        (httpdFindandstoreFirstchunk s e).2) := by
  rw [firstchunk_eq, firstchunk_eq, show (s.over s.kept n).boundaryValue = s.boundaryValue from rfl]
  rcases searchFirstchunk s.boundaryValue e with _ | ⟨t, _ | ⟨bv, start, stop⟩⟩
  all_goals rfl

theorem handleRequest_count (n : ℕ) :
    ∃ n', handleRequest fs (s.over s.kept n) e =
      ((handleRequest fs s e).1.over (handleRequest fs s e).1.kept n',
        (handleRequest fs s e).2) := by
  rw [handleRequest, handleRequest]
  split
  · rw [handleGet, handleGet]
    split
    · exact ⟨0, rfl⟩
    · exact ⟨n, rfl⟩
  split
  · rw [handlePost, handlePost]
    rcases contentLength e.appdataZ with _ | m
    · exact ⟨0, rfl⟩
    rcases boundary e.appdataZ with _ | bv
    · exact ⟨0, rfl⟩
    by_cases hm : e.malloc = true
    · simp only [hm, if_true]
      refine ⟨n, ?_⟩
      rw [show beginUpload (s.over s.kept n) m bv
        = (beginUpload s m bv).over (beginUpload s m bv).kept n from rfl, firstchunk_over]
      rfl
    · simp only [hm]
      exact ⟨0, rfl⟩
  · exact ⟨0, rfl⟩

theorem handleAcked_count (n : ℕ) :
    ∃ n', handleAcked (s.over s.kept n) e =
      ((handleAcked s e).1.over (handleAcked s e).1.kept n', (handleAcked s e).2) := by
  rw [handleAcked, handleAcked]
  by_cases hs : s.state = .fileRequest
  swap
  · rw [if_neg hs, if_neg (show (s.over s.kept n).state ≠ _ from hs)]
    exact ⟨n, rfl⟩
  rw [if_pos hs, if_pos (show (s.over s.kept n).state = _ from hs)]
  by_cases hm : s.upload ≤ e.mss
  · rw [if_pos hm, if_pos (show (s.over s.kept n).upload ≤ _ from hm)]
    refine ⟨0, ?_⟩
    rw [commit, commit]
    by_cases hpd : s.postDone = true
    · rw [if_pos hpd, if_pos (show (s.over s.kept n).postDone = true from hpd)]
      rfl
    · rw [if_neg hpd, if_neg (show ¬ (s.over s.kept n).postDone = true from hpd)]
      rfl
  · rw [if_neg hm, if_neg (show ¬ (s.over s.kept n).upload ≤ _ from hm)]
    exact ⟨n, rfl⟩

theorem handleBody_count (n : ℕ) (hs : s.state = .uploadRequest) :
    ∃ n', handleBody fs (s.over s.kept n) e =
      ((handleBody fs s e).1.over (handleBody fs s e).1.kept n', (handleBody fs s e).2) := by
  rw [handleBody, handleBody, if_pos hs, if_pos (show (s.over s.kept n).state = _ from hs),
    firstchunk_over, storeBody_over,
    show (s.over s.kept n).smallFileFlag = s.smallFileFlag from rfl,
    show (s.over s.kept n).dataStartFound = s.dataStartFound from rfl]
  by_cases hf : (!s.smallFileFlag && !s.dataStartFound) = true
  · rw [if_pos hf, if_pos hf]
    rcases hfound : (httpdFindandstoreFirstchunk s e).2.1 with _ | _
    · simp only [hfound]
      exact ⟨0, rfl⟩
    · simp only [hfound, if_true]
      exact ⟨n, rfl⟩
  · rw [if_neg hf, if_neg hf]
    by_cases hc : bodyComplete (storeBody s e) = true
    · simp only [hc, if_true]
      rw [if_pos (show bodyComplete ((storeBody s e).over (storeBody s e).kept n) = true from hc)]
      exact ⟨0, rfl⟩
    · simp only [hc]
      rw [if_neg (show ¬ bodyComplete ((storeBody s e).over (storeBody s e).kept n) = true
        from hc)]
      exact ⟨n, rfl⟩

/-- Poll counts below the limit make no difference to a call. -/
theorem appcall_count (n : ℕ) (ht : e.Ticks → s.count < 100 ∧ n < 100) :
    ∃ n', httpdAppcall fs (s.over s.kept n) e =
      ((httpdAppcall fs s e).1.over (httpdAppcall fs s e).1.kept n', (httpdAppcall fs s e).2) := by
  refine appcall_lockstep fs (fun r r' => ∃ n', r' = (r.1.over r.1.kept n', r.2)) rfl
    (fun htick => ?_) (fun _ => ⟨n, rfl⟩) (fun _ => ⟨0, rfl⟩) ⟨n + 1, rfl⟩ (fun _ => ⟨n, rfl⟩)
    (fun _ => handleRequest_count fs n) (handleAcked_count n)
    fun hbody => handleBody_count fs n hbody.2.2.1
  -- a poll finds both counts below the limit
  have := ht htick
  exact iff_of_false (by simpa [State.over] using this.2) (by omega)

/-- A poll below the limit, or a call for another port, passes the request by. -/
theorem appcall_passes (hp : e.Ticks ∨ e.lport ≠ 80) :
    ∃ out, ∀ u : State, (e.Ticks → u.count < 100) →
      ∃ n, httpdAppcall fs u e = (u.over u.kept n, out) := by
  by_cases hport : e.lport = 80
  · have ht : e.Ticks := hp.resolve_right (not_not.mpr hport)
    refine ⟨{}, fun u hu => ⟨u.count + 1, ?_⟩⟩
    have hcount := hu ht
    obtain ⟨-, hclose, habort, htime, hpoll⟩ := ht
    rw [httpdAppcall, if_pos hport, if_neg (by simp [hclose]), if_neg (by simp [habort, htime]),
      if_pos hpoll, if_neg (by omega)]
    rfl
  · refine ⟨{ reply := .abort }, fun u _ => ⟨u.count, ?_⟩⟩
    rw [httpdAppcall, if_neg hport]
    rfl

/-- A call that neither finds an upload in progress nor starts one is answered by the
request alone. -/
theorem appcall_over (k : Kept) (n : ℕ) (hs : s.state ≠ .uploadRequest)
    (hp : isPost e.appdata = false) (ht : e.Ticks → s.count < 100 ∧ n < 100) :
    (httpdAppcall fs (s.over k n) e).1.request = (httpdAppcall fs s e).1.request ∧
      (httpdAppcall fs (s.over k n) e).2 = (httpdAppcall fs s e).2 := by
  refine appcall_lockstep fs (fun r r' => r'.1.request = r.1.request ∧ r'.2 = r.2) rfl
    (fun htick => ?_) (fun _ => ⟨rfl, rfl⟩) (fun _ => ⟨rfl, rfl⟩) ⟨rfl, rfl⟩
    (fun _ => ⟨rfl, rfl⟩) (fun _ => ?_) ?_ (fun hbody => absurd hbody.2.2.1 hs)
  · have := ht htick
    exact iff_of_false (by simpa [State.over] using this.2) (by omega)
  · rw [handleRequest, handleRequest, hp]
    split
    · rw [handleGet, handleGet]
      split
      · exact ⟨rfl, rfl⟩
      · exact ⟨rfl, rfl⟩
    · exact ⟨rfl, rfl⟩
  · rw [handleAcked, handleAcked]
    by_cases hs : s.state = .fileRequest
    swap
    · rw [if_neg hs, if_neg (show (s.over k n).state ≠ _ from hs)]
      exact ⟨rfl, rfl⟩
    rw [if_pos hs, if_pos (show (s.over k n).state = _ from hs)]
    by_cases hm : s.upload ≤ e.mss
    · rw [if_pos hm, if_pos (show (s.over k n).upload ≤ _ from hm)]
      exact ⟨rfl, rfl⟩
    · rw [if_neg hm, if_neg (show ¬ (s.over k n).upload ≤ _ from hm)]
      exact ⟨rfl, rfl⟩

/-- The call commits a pending upload. -/
def CommitsPending (s : State) (e : Event) : Prop :=
  TakesAck s e ∧ s.upload ≤ e.mss ∧ s.postDone = true

instance (s : State) (e : Event) : Decidable (CommitsPending s e) := by
  unfold CommitsPending; infer_instance

/-- Apart from a commit, such a call leaves alone what outlives the request. -/
theorem kept_of_noUpload (hs : s.state ≠ .uploadRequest) (hp : isPost e.appdata = false) :
    (httpdAppcall fs s e).1.state ≠ .uploadRequest ∧
      ((httpdAppcall fs s e).1.postDone = true → s.postDone = true) ∧
      (¬ CommitsPending s e → (httpdAppcall fs s e).1.kept = s.kept) := by
  have hexit := exit_of_appcall fs s e
  generalize httpdAppcall fs s e = r at hexit ⊢
  cases hexit with
  | foreign | tick | resend | idle | nextChunk => exact ⟨hs, id, fun _ => rfl⟩
  | closed | refuse => exact ⟨by simp [httpdStateReset, resetAbort], id, fun _ => rfl⟩
  | get => exact ⟨by simp [servePage], id, fun _ => rfl⟩
  | refusePost h n hpost => exact absurd hpost (by simp [hp])
  | post h n bv hpost => exact absurd hpost (by simp [hp])
  | lastAcked h hm =>
    refine ⟨by simp [httpdStateReset], ?_, fun hc => ?_⟩
    · rw [commit]
      split
      · exact fun h => absurd h (by simp [httpdStateReset])
      · exact id
    · rw [commit, if_neg fun hpd => hc ⟨h, hm, hpd⟩]
      rfl
  | firstFound h | firstLost h | stored h | finished h => exact absurd h.2.2.1 hs

end Congr

/-! ### Taking turns -/

/-- The call together with the connection whose request is in progress. -/
def ownedStep (fs : Fs) (p : State × Option ℕ) (e : Event) : (State × Option ℕ) × Out :=
  let r := httpdAppcall fs p.1 e
  ((r.1, if r.1.state = .none then none else if p.1.state = .none then some e.conn else p.2), r.2)

/-- The call is no poll past the limit. -/
def PollBelow (s : State) (e : Event) : Prop := e.Ticks → s.count < 100

/-- The connections take turns: the call passes the request by, or no request is in
progress, or it is one of the calling connection; and only `a` commits an upload. -/
def Serial (a : ℕ) (p : State × Option ℕ) (e : Event) : Prop :=
  (e.Ticks ∨ e.lport ≠ 80 ∨ p.2 = none ∨ p.2 = some e.conn) ∧
    (e.conn ≠ a → ¬ CommitsPending p.1 e) ∧ PollBelow p.1 e

/-- The call opens its connection. -/
def Opens (e : Event) : Prop :=
  e.lport = 80 ∧ e.flags.poll = false ∧ e.flags.connected = true

instance (s : State) (e : Event) : Decidable (PollBelow s e) := by
  unfold PollBelow; infer_instance
instance (a : ℕ) (p : State × Option ℕ) (e : Event) : Decidable (Serial a p e) := by
  unfold Serial; infer_instance
instance (e : Event) : Decidable (Opens e) := by unfold Opens; infer_instance

/-- What the shared server `s` has to do with the server `sa` that `a` has alone and the
server `sb` that `b` finds when `a` is through.  `o` owns the request in progress. -/
structure Split (a b : ℕ) (s : State) (o : Option ℕ) (sa sb : State) : Prop where
  wf : Wf s
  wfA : Wf sa
  wfB : Wf sb
  owner : o = none ↔ s.state = .none
  kept : s.kept = sa.kept
  requestA : o ≠ some b → s.request = sa.request
  requestB : o ≠ some a → s.request = sb.request
  idleA : o ≠ some a → sa.state = .none
  idleB : o ≠ some b → sb.state = .none
  noUpload : sb.state ≠ .uploadRequest

theorem state_eq_of_request {s t : State} (h : s.request = t.request) : s.state = t.state :=
  congrArg Request.state h

section Steps

variable {a b : ℕ} {s sa sb : State} {o : Option ℕ} {e : Event} (fs : Fs)

/-- A call that passes the request by keeps the split, on whichever side it is made. -/
theorem Split.passes (h : Split a b s o sa sb) (n na nb : ℕ) :
    Split a b (s.over s.kept n) o (sa.over sa.kept na) (sb.over sb.kept nb) :=
  have hwf : ∀ {u : State} {m : ℕ}, Wf u → Wf (u.over u.kept m) :=
    fun hu => ⟨hu.1, hu.2, hu.3, hu.4, hu.5, hu.6, hu.7, hu.8, hu.9⟩
  { wf := hwf h.wf
    wfA := hwf h.wfA
    wfB := hwf h.wfB
    owner := h.owner
    kept := h.kept
    requestA := h.requestA
    requestB := h.requestB
    idleA := h.idleA
    idleB := h.idleB
    noUpload := h.noUpload }

/-- The owner does not change when the request is passed by. -/
theorem owner_passes (h : Split a b s o sa sb) (c n : ℕ) :
    (if (s.over s.kept n).state = .none then none else if s.state = .none then some c else o) = o := by
  by_cases hs : s.state = .none
  · rw [if_pos (show (s.over s.kept n).state = _ from hs), h.owner.mpr hs]
  · rw [if_neg (show ¬ (s.over s.kept n).state = _ from hs), if_neg hs]

/-- The new owner after a call of `c` that finds no request of another connection. -/
theorem owner_of_turn {c : ℕ} {s' : State} (h : o = none ∨ o = some c)
    (hown : o = none ↔ s.state = .none) :
    (if s'.state = .none then none else if s.state = .none then some c else o)
      = if s'.state = .none then none else some c := by
  by_cases hs : s.state = .none
  · rw [if_pos hs]
  · rw [if_neg hs, h.resolve_left fun ho => hs (hown.mp ho)]

/-- The caller gives the request back only when it has come to its end. -/
theorem idle_of_released {s' : State} {c : ℕ}
    (h : (if s'.state = .none then none else some c) ≠ some c) : s'.state = .none := by
  by_contra hs
  rw [if_neg hs] at h
  exact h rfl

/-- A call of the uploading connection. -/
theorem split_uploader (hab : a ≠ b) (h : Split a b s o sa sb) (hconn : e.conn = a)
    (hser : Serial a (s, o) e) (hpa : PollBelow sa e) :
    (seenStep fs s e).2.2 = (seenStep fs sa e).2.2 ∧
      Split a b (ownedStep fs (s, o) e).1.1 (ownedStep fs (s, o) e).1.2
        (httpdAppcall fs sa e).1 sb := by
  obtain ⟨hturn, -, hps⟩ := hser
  by_cases hpass : e.Ticks ∨ e.lport ≠ 80
  · -- the call leaves the request as it is, on the shared server and on its own
    obtain ⟨out, hout⟩ := appcall_passes fs hpass
    obtain ⟨n, hn⟩ := hout s hps
    obtain ⟨na, hna⟩ := hout sa hpa
    simp only [seenStep, ownedStep, hn, hna]
    rw [owner_passes h]
    refine ⟨?_, ?_⟩
    · simp [State.over, State.kept]
    · exact h.passes n na sb.count
  rw [not_or] at hpass
  have ho : o = none ∨ o = some a := by
    rw [← hconn]
    exact (hturn.resolve_left hpass.1).resolve_left hpass.2
  have hob : o ≠ some b := by
    rcases ho with ho | ho
    · simp [ho]
    · simpa [ho] using hab
  -- the server of its own differs from the shared one in the poll count only
  have hsa : sa = s.over s.kept sa.count := by
    rw [h.kept]
    exact eq_over (h.requestA hob)
  obtain ⟨n', hn'⟩ := appcall_count fs sa.count fun ht => ⟨hps ht, hpa ht⟩
  rw [← hsa] at hn'
  have hwf' : Wf (httpdAppcall fs s e).1 := wf_step fs e h.wf
  have hwfa' : Wf (httpdAppcall fs sa e).1 := wf_step fs e h.wfA
  have hpd : sa.postDone = s.postDone := by rw [hsa]; rfl
  have hidle : sb.state = .none := h.idleB hob
  simp only [seenStep, ownedStep]
  rw [hconn, owner_of_turn ho h.owner]
  rw [hn'] at hwfa' ⊢
  exact ⟨by simp [hpd, State.over, State.kept],
    { wf := hwf'
      wfA := hwfa'
      wfB := h.wfB
      owner := by simp
      kept := rfl
      requestA := fun _ => rfl
      requestB := fun hne => request_eq_of_none hwf' h.wfB (idle_of_released hne) hidle
      idleA := idle_of_released
      idleB := fun _ => hidle
      noUpload := h.noUpload }⟩

/-- A call of the other connection. -/
theorem split_getter (hab : a ≠ b) (h : Split a b s o sa sb) (hconn : e.conn = b)
    (hpost : isPost e.appdata = false) (hser : Serial a (s, o) e) (hpb : PollBelow sb e) :
    (seenStep fs s e).2.2 = (seenStep fs sb e).2.2 ∧
      Split a b (ownedStep fs (s, o) e).1.1 (ownedStep fs (s, o) e).1.2
        sa (httpdAppcall fs sb e).1 := by
  obtain ⟨hturn, hcommit, hps⟩ := hser
  by_cases hpass : e.Ticks ∨ e.lport ≠ 80
  · obtain ⟨out, hout⟩ := appcall_passes fs hpass
    obtain ⟨n, hn⟩ := hout s hps
    obtain ⟨nb, hnb⟩ := hout sb hpb
    simp only [seenStep, ownedStep, hn, hnb]
    rw [owner_passes h]
    refine ⟨?_, ?_⟩
    · simp [State.over, State.kept]
    · exact h.passes n sa.count nb
  rw [not_or] at hpass
  have ho : o = none ∨ o = some b := by
    rw [← hconn]
    exact (hturn.resolve_left hpass.1).resolve_left hpass.2
  have hoa : o ≠ some a := by
    rcases ho with ho | ho
    · simp [ho]
    · simpa [ho] using hab.symm
  -- here what the uploads leave behind differs too, but no upload is going on
  have hreq : s.request = sb.request := h.requestB hoa
  have hsb : sb = s.over sb.kept sb.count := eq_over hreq
  have hs : s.state ≠ .uploadRequest := by
    rw [state_eq_of_request hreq]
    exact h.noUpload
  obtain ⟨hreq', hout⟩ :=
    appcall_over fs sb.kept sb.count hs hpost fun ht => ⟨hps ht, hpb ht⟩
  rw [← hsb] at hreq' hout
  obtain ⟨-, -, hkept⟩ := kept_of_noUpload fs hs hpost
  obtain ⟨hnoUpload, hdone, -⟩ := kept_of_noUpload fs h.noUpload hpost
  have hkept' := hkept (hcommit (by rw [hconn]; exact hab.symm))
  have hpd : (httpdAppcall fs s e).1.postDone = s.postDone := congrArg Kept.postDone hkept'
  have hwf' : Wf (httpdAppcall fs s e).1 := wf_step fs e h.wf
  have hidle : sa.state = .none := h.idleA hoa
  have hseen : (seenStep fs s e).2.2 = (seenStep fs sb e).2.2 := by
    simp only [seenStep, hout, hpd]
    rw [if_neg (by simp), if_neg]
    intro hd
    simp only [Bool.and_eq_true, Bool.not_eq_true'] at hd
    exact absurd (hdone hd.2) (by simp [hd.1])
  refine ⟨hseen, ?_⟩
  simp only [ownedStep]
  rw [hconn, owner_of_turn ho h.owner]
  exact
    { wf := hwf'
      wfA := h.wfA
      wfB := wf_step fs e h.wfB
      owner := by simp
      kept := hkept'.trans h.kept
      requestA := fun hne => request_eq_of_none hwf' h.wfA (idle_of_released hne) hidle
      requestB := fun _ => hreq'.symm
      idleA := fun _ => hidle
      idleB := fun hne => (state_eq_of_request hreq').trans (idle_of_released hne)
      noUpload := hnoUpload }

/-- What each connection sees of a shared run is what it sees of its own events. -/
theorem seenOn_of_split (hab : a ≠ b) {w : List Event} (h : Split a b s o sa sb)
    (hw : ∀ e ∈ w, e.conn = a ∨ e.conn = b)
    (hpost : ∀ e ∈ w, e.conn = b → isPost e.appdata = false)
    (hser : Run.AllSteps (ownedStep fs) (Serial a) (s, o) w)
    (hpa : Run.AllSteps (httpdAppcall fs) PollBelow sa (eventsOf a w))
    (hpb : Run.AllSteps (httpdAppcall fs) PollBelow sb (eventsOf b w)) :
    seenOn fs a s w = seenOn fs a sa (eventsOf a w) ∧
      seenOn fs b s w = seenOn fs b sb (eventsOf b w) := by
  induction w generalizing s o sa sb with
  | nil => exact ⟨rfl, rfl⟩
  | cons e w ih =>
    have hw' := fun e' he' => hw e' (List.mem_cons_of_mem e he')
    have hpost' := fun e' he' => hpost e' (List.mem_cons_of_mem e he')
    -- the next event belongs to the uploading connection or to the other one
    rcases hw e List.mem_cons_self with hc | hc
    · have hcb : e.conn ≠ b := by rw [hc]; exact hab
      rw [eventsOf, List.filter_cons_of_pos (by simpa using hc)] at hpa
      rw [eventsOf, List.filter_cons_of_neg (by simpa using hcb)] at hpb
      obtain ⟨hseen, hsplit⟩ := split_uploader fs hab h hc hser.1 hpa.1
      obtain ⟨iha, ihb⟩ := ih hsplit hw' hpost' hser.2 hpa.2 hpb
      rw [eventsOf, List.filter_cons_of_pos (by simpa using hc), eventsOf,
        List.filter_cons_of_neg (by simpa using hcb)]
      refine ⟨?_, ?_⟩
      · rw [seenOn_cons, if_pos hc, seenOn_cons, if_pos hc, hseen]
        exact congrArg _ iha
      · rw [seenOn_cons, if_neg hcb]
        exact ihb
    · have hca : e.conn ≠ a := by rw [hc]; exact hab.symm
      rw [eventsOf, List.filter_cons_of_neg (by simpa using hca)] at hpa
      rw [eventsOf, List.filter_cons_of_pos (by simpa using hc)] at hpb
      obtain ⟨hseen, hsplit⟩ :=
        split_getter fs hab h hc (hpost e List.mem_cons_self hc) hser.1 hpb.1
      obtain ⟨iha, ihb⟩ := ih hsplit hw' hpost' hser.2 hpa hpb.2
      rw [eventsOf, List.filter_cons_of_neg (by simpa using hca), eventsOf,
        List.filter_cons_of_pos (by simpa using hc)]
      refine ⟨?_, ?_⟩
      · rw [seenOn_cons, if_neg hca]
        exact iha
      · rw [seenOn_cons, if_pos hc, seenOn_cons, if_pos hc, hseen]
        exact congrArg _ ihb

end Steps

/-- The call that opens a connection finds nothing of the request before it. -/
theorem appcall_opens (fs : Fs) {e : Event} (s : State) (h : Opens e) :
    httpdAppcall fs (httpdStateReset s) e = httpdAppcall fs s e := by
  obtain ⟨hport, hpoll, hconn⟩ := h
  simp only [httpdAppcall, hport, hpoll, hconn, if_true]
  rfl

/-- A connection that opens first sees the same whatever request came before. -/
theorem seenOn_opens (fs : Fs) {b : ℕ} {es : List Event} (s : State)
    (h : ∀ e, es.head? = some e → Opens e) :
    seenOn fs b (httpdStateReset s) es = seenOn fs b s es := by
  rcases es with _ | ⟨e, es⟩
  · rfl
  · rw [seenOn_cons, seenOn_cons, seenStep, seenStep, appcall_opens fs s (h e rfl)]
    rfl

theorem pollBelow_opens (fs : Fs) {es : List Event} (s : State)
    (h : ∀ e, es.head? = some e → Opens e)
    (hp : Run.AllSteps (httpdAppcall fs) PollBelow s es) :
    Run.AllSteps (httpdAppcall fs) PollBelow (httpdStateReset s) es := by
  rcases es with _ | ⟨e, es⟩
  · trivial
  · refine ⟨fun _ => by simp [httpdStateReset], ?_⟩
    rw [appcall_opens fs s (h e rfl)]
    exact hp.2

theorem split_initial (a b : ℕ) (ram : Ram) (t : State) :
    Split a b (initial ram) none (initial ram) (httpdStateReset t) where
  wf := wf_initial ram
  wfA := wf_initial ram
  wfB := wf_reset
  owner := iff_of_true rfl rfl
  kept := rfl
  requestA := fun _ => rfl
  requestB := fun _ => rfl
  idleA := fun _ => rfl
  idleB := fun _ => rfl
  noUpload := by simp [httpdStateReset]

/-- **Isolation of connections that take turns.**  The interleaving `w` shows each of
the two connections what the events of `a` followed by those of `b` show it. -/
theorem isolation_of_serial (fs : Fs) (ram : Ram) {a b : ℕ} (hab : a ≠ b) (w : List Event)
    (hw : ∀ e ∈ w, e.conn = a ∨ e.conn = b)
    (hpost : ∀ e ∈ w, e.conn = b → isPost e.appdata = false)
    (hopen : ∀ e, (eventsOf b w).head? = some e → Opens e)
    (hser : Run.AllSteps (ownedStep fs) (Serial a) (initial ram, none) w)
    (hpoll : Run.AllSteps (httpdAppcall fs) PollBelow (initial ram)
      (eventsOf a w ++ eventsOf b w)) :
    seenOn fs a (initial ram) w = seenOn fs a (initial ram) (eventsOf a w ++ eventsOf b w) ∧
      seenOn fs b (initial ram) w = seenOn fs b (initial ram) (eventsOf a w ++ eventsOf b w) := by
  have hmem : ∀ {c : ℕ} {e : Event}, e ∈ eventsOf c w → e.conn = c := by
    intro c e he
    simpa using (List.mem_filter.mp he).2
  obtain ⟨hpa, hpb⟩ := Run.allSteps_append.mp hpoll
  -- `b` is compared from the reset state: its first call resets the server anyway
  obtain ⟨hA, hB⟩ := seenOn_of_split fs hab
    (split_initial a b ram (serve fs (initial ram) (eventsOf a w))) hw hpost hser hpa
    (pollBelow_opens fs _ hopen hpb)
  have hnilB : seenOn fs a (serve fs (initial ram) (eventsOf a w)) (eventsOf b w) = [] :=
    seenOn_eq_nil fs fun e he => by rw [hmem he]; exact hab.symm
  have hnilA : seenOn fs b (initial ram) (eventsOf a w) = [] :=
    seenOn_eq_nil fs fun e he => by rw [hmem he]; exact hab
  refine ⟨?_, ?_⟩
  · rw [seenOn_append, hnilB, List.append_nil]
    exact hA
  · rw [seenOn_append, hnilA, List.nil_append, ← seenOn_opens fs _ hopen]
    exact hB

/-! ### Two interleavings -/

/-- Connection 1 fetches a page before the upload of connection 0 starts, and is closed
after it. -/
def turnsRun : List Event :=
  [connected 0, connected 1, newData 1 (ascii "GET / HTTP/1.1\r\n\r\n") getPage_lt, acked 1,
    newData 0 (tinyUpload.bytes.take tinyUpload.dataStart) tinyUpload_head_lt,
    newData 0 (tinyUpload.bytes.drop tinyUpload.dataStart) tinyUpload_tail_lt, acked 0, closed 1]

theorem isolation_of_serial_turns :
    seenOn default 0 (initial fun _ => 0) turnsRun
        = seenOn default 0 (initial fun _ => 0) (eventsOf 0 turnsRun ++ eventsOf 1 turnsRun) ∧
      seenOn default 1 (initial fun _ => 0) turnsRun
        = seenOn default 1 (initial fun _ => 0) (eventsOf 0 turnsRun ++ eventsOf 1 turnsRun) := by
  refine isolation_of_serial default (fun _ => 0) (by decide) turnsRun (by decide)
    (by decide +kernel) ?_ (by decide +kernel) (by decide +kernel)
  intro e he
  have : e = connected 1 := by
    simpa [turnsRun, eventsOf, connected, newData, acked, closed] using he.symm
  rw [this]
  decide

/-- An upload on connection 0, and connection 1 opened between its two segments. -/
def openedBetween : List Event :=
  [connected 0, newData 0 (tinyUpload.bytes.take tinyUpload.dataStart) tinyUpload_head_lt,
    connected 1, newData 0 (tinyUpload.bytes.drop tinyUpload.dataStart) tinyUpload_tail_lt]

/-- **An upload is lost.**  A connection that is merely opened ends the upload of another. -/
theorem isolation_lost :
    (∃ r ∈ seenOn default 0 (initial fun _ => 0)
        (eventsOf 0 openedBetween ++ eventsOf 1 openedBetween),
      r.completed = some (1, .uboot, ascii "A")) ∧
      ∀ r ∈ seenOn default 0 (initial fun _ => 0) openedBetween, r.completed = none := by
  decide +kernel

end Httpd
