/-
What uIP sends while the web server has a page to send.

One lemma for each call of `httpd_appcall` that can come then, one for `appsend` and one for
`apprexmit`, and from them what a segment (`established`) and the timer (`uip_periodic`) do
to the connection and to the page.

* `established_lastAcked`, `established_nextChunk`, `established_quiet` — a segment that
  acknowledges the data in flight, when what is left of the page fits into one segment and
  when it does not, and a segment that acknowledges nothing;
* `uipPeriodic_outstanding`, `uipPeriodic_idle` — the timer, with data in flight and without;
* `found_ended`, `uipPeriodic_closing` — a connection that has been closed.

`Closes` and `inFlight` say of a packet whether it closes the connection, and which data are
in flight behind it.
-/
import OpenMptcpRouter.Uip.Process

namespace Uip

open Httpd (Flags Fs Event Out Reply)

/-- A segment of a connection that neither resets nor ends it. -/
structure Segment where
  buf : Buf
  ipLen : ℕ
  malloc : Bool
  rst : buf.has tcpRst = false
  fin : buf.has tcpFin = false

/-- The length of its data. -/
def Segment.len (s : Segment) : ℕ := u16 (s.ipLen - s.buf.hdrLen - 20)

/-- The data in flight once a packet has been sent. -/
def inFlight (flight : List UInt8) : Option Packet → List UInt8
  | some (.tcp _ _ _ (x :: data)) => x :: data
  | _ => flight

/-- The packet closes the connection. -/
def Closes : Option Packet → Prop
  | some (.tcp flags _ _ _) => flags &&& tcpFin ≠ 0
  | _ => False

instance : DecidablePred Closes
  | none => isFalse not_false
  | some (.tcp flags _ _ _) => inferInstanceAs (Decidable (flags &&& tcpFin ≠ 0))
  | some .echoReply => isFalse not_false

/-- The segment size for the window of a segment. -/
def newMss (c : Conn) (b : Buf) : ℕ :=
  if c.initialmss < b.wnd ∨ b.wnd = 0 then c.initialmss else b.wnd

/-! ### One call of the application -/

@[simp] theorem Stack.setConn_self (u : Stack) (i : Fin 2) (c : Conn) :
    (u.setConn i c).conns i = c := Function.update_self ..

@[simp] theorem Stack.setConn_app (u : Stack) (i : Fin 2) (c : Conn) :
    (u.setConn i c).app = u.app := rfl

/-- A call with data, an acknowledgement or a time-out, when a request has been taken. -/
theorem httpdAppcall_of_plain {fs : Fs} {s : Httpd.State} {e : Event} (he : e.Plain)
    (hs : s.state = .fileRequest) :
    Httpd.httpdAppcall fs s e =
      if e.flags.ackdata then Httpd.handleAcked s e
      else if e.flags.rexmit then Httpd.handleRexmit s e
      else (s, {}) := by
  obtain ⟨hport, hclose, habort, htimedout, hpoll, hconnected⟩ := he
  simp only [Httpd.httpdAppcall, hport, hclose, habort, htimedout, hpoll, hconnected, hs,
    Httpd.handleBody, if_true, Bool.false_eq_true, if_false, Bool.or_self, reduceCtorEq,
    decide_false, Bool.and_false, ite_self]

/-- A call with neither an acknowledgement nor a time-out. -/
theorem httpdAppcall_of_newdata {fs : Fs} {s : Httpd.State} {e : Event} (he : e.Plain)
    (hs : s.state = .fileRequest) (hack : e.flags.ackdata = false)
    (hrexmit : e.flags.rexmit = false) : Httpd.httpdAppcall fs s e = (s, {}) := by
  rw [httpdAppcall_of_plain he hs, hack, hrexmit]
  rfl

variable {fs : Fs} {u : Stack} {i : Fin 2} {c c' : Conn} {b : Buf} {d : AppData} {malloc : Bool}

/-- `c'` is `c` with other counters. -/
structure Conn.Keeps (c c' : Conn) : Prop where
  tcpState : c'.tcpState = c.tcpState
  lport : c'.lport = c.lport
  initialmss : c'.initialmss = c.initialmss

theorem Conn.Keeps.refl (c : Conn) : c.Keeps c := ⟨rfl, rfl, rfl⟩

theorem Conn.Keeps.trans {c'' : Conn} (h : c.Keeps c') (h' : c'.Keeps c'') : c.Keeps c'' :=
  ⟨h'.tcpState.trans h.tcpState, h'.lport.trans h.lport, h'.initialmss.trans h.initialmss⟩

theorem newMss_eq (h : c.Keeps c') : newMss c' b = newMss c b := by
  rw [newMss, newMss, h.initialmss]

theorem newMss_lt (h : c.initialmss < 2 ^ 16) : newMss c b < 2 ^ 16 := by
  rw [newMss]
  split <;> omega

/-- An acknowledgement changes neither what the connection is nor how much is outstanding. -/
theorem ackReceived_keeps (c : Conn) (b : Buf) :
    c.Keeps (ackReceived c b).1 ∧ (ackReceived c b).1.len = c.len ∧
      (ackReceived c b).1.rcvNxt = c.rcvNxt := by
  rw [ackReceived]
  split
  · rw [estimateRtt]
    dsimp only
    split <;> exact ⟨⟨rfl, rfl, rfl⟩, rfl, rfl⟩
  · exact ⟨.refl c, rfl, rfl⟩

/-! ### Sending -/

theorem apprexmit_stack (r : Called) (slen : ℕ) :
    (apprexmit u i c r slen).stack = u.setConn i c := by
  rw [apprexmit]
  split
  · rfl
  · split <;> rfl

@[simp] theorem apprexmit_conn (r : Called) (slen : ℕ) :
    (apprexmit u i c r slen).stack.conns i = c := by
  rw [apprexmit_stack, Stack.setConn_self]

@[simp] theorem apprexmit_app (r : Called) (slen : ℕ) :
    (apprexmit u i c r slen).stack.app = u.app := by
  rw [apprexmit_stack, Stack.setConn_app]

theorem not_closes_apprexmit (r : Called) (slen : ℕ) :
    ¬ Closes (apprexmit u i c r slen).sent := by
  have hack : ¬ tcpAck &&& tcpFin ≠ 0 := by decide
  have hpsh : ¬ (tcpAck ||| tcpPsh) &&& tcpFin ≠ 0 := by decide
  rw [apprexmit]
  split
  · exact hpsh
  · split
    · exact hack
    · exact not_false

/-- What is in flight behind `apprexmit`. -/
theorem inFlight_apprexmit (r : Called) (slen : ℕ) (flight : List UInt8) :
    inFlight flight (apprexmit u i c r slen).sent =
      if 0 < slen ∧ 0 < c.len ∧ r.app.dataptr ≠ [] then r.app.dataptr.take c.len else flight := by
  rw [apprexmit]
  by_cases hslen : 0 < slen ∧ 0 < c.len
  · rw [if_pos hslen]
    cases hdata : r.app.dataptr with
    | nil =>
      rw [if_neg (by simp)]
      simp only [tcpSend, List.take_nil]
      rfl
    | cons x data =>
      rw [if_pos ⟨hslen.1, hslen.2, by simp⟩]
      obtain ⟨n, hn⟩ : ∃ n, c.len = n + 1 := ⟨c.len - 1, by omega⟩
      simp only [tcpSend, hn, List.take_succ_cons]
      rfl
  · have hnone : ¬ (0 < slen ∧ 0 < c.len ∧ r.app.dataptr ≠ []) := fun h => hslen ⟨h.1, h.2.1⟩
    rw [if_neg hslen, if_neg hnone]
    split <;> rfl

/-- How much is outstanding behind `appsend`. -/
def newLen (c : Conn) (r : Called) : ℕ :=
  if r.slen = 0 then 0
  else if r.flags.ackdata ∨ c.len = 0 then min r.slen c.mss
  else c.len

theorem appsend_eq {r : Called} (habort : r.flags.abort = false) (hclose : r.flags.close = false) :
    appsend u i c r =
      apprexmit { u with app := r.app } i { c with len := newLen c r, nrtx := 0 } r
        (newLen c r) := by
  have hmin : (if c.mss < r.slen then c.mss else r.slen) = min r.slen c.mss := by
    split <;> omega
  rw [appsend, habort, hclose]
  simp only [Bool.false_eq_true, if_false]
  by_cases hslen : r.slen = 0
  · have hnew : newLen c r = 0 := if_pos hslen
    rw [if_neg (by omega), hnew]
  by_cases hfree : r.flags.ackdata = true ∨ c.len = 0
  · -- nothing is outstanding any more
    have hnew : newLen c r = min r.slen c.mss := (if_neg hslen).trans (if_pos hfree)
    have hlen : (if r.flags.ackdata = true then 0 else c.len) = 0 := by
      split
      · rfl
      · exact hfree.resolve_left ‹_›
    rw [if_pos (by omega), if_pos hlen, hnew, hmin]
  · have hnew : newLen c r = c.len := (if_neg hslen).trans (if_neg hfree)
    rw [not_or] at hfree
    rw [if_pos (by omega), if_neg hfree.1, if_neg hfree.2, hnew]

/-- **Sending.**  When the application neither closes nor aborts, its state is kept, as much as
may be sent is outstanding, and these data are in flight. -/
theorem appsend_open {r : Called} (habort : r.flags.abort = false)
    (hclose : r.flags.close = false) :
    let a := appsend u i c r
    a.stack.conns i = { c with len := newLen c r, nrtx := 0 } ∧ a.stack.app = r.app ∧
      ¬ Closes a.sent ∧ ∀ flight, inFlight flight a.sent =
        if 0 < newLen c r ∧ r.app.dataptr ≠ [] then r.app.dataptr.take (newLen c r)
        else flight := by
  intro a
  have ha : a = _ := appsend_eq habort hclose
  rw [ha]
  refine ⟨apprexmit_conn _ _, apprexmit_app _ _, not_closes_apprexmit _ _, fun flight => ?_⟩
  rw [inFlight_apprexmit]
  simp only [and_self_left]

theorem appsend_close {r : Called} (habort : r.flags.abort = false) (hclose : r.flags.close = true) :
    appsend u i c r =
      { stack := { u with app := r.app }.setConn i { c with len := 1, tcpState := .finWait1, nrtx := 0 }
        accesses := r.accesses
        sent := some (.tcp (tcpFin ||| tcpAck) c.sndNxt c.rcvNxt []) } := by
  rw [appsend, habort, hclose]
  rfl

theorem appsend_abort {r : Called} (habort : r.flags.abort = true) :
    appsend u i c r =
      { stack := { u with app := r.app }.setConn i { c with tcpState := .closed }
        accesses := r.accesses
        sent := some (.tcp (tcpRst ||| tcpAck) c.sndNxt c.rcvNxt []) } := by
  rw [appsend, habort]
  rfl

/-! ### The calls while the page is on its way -/

/-- Whatever is urgent in a segment without FIN, the application is called for new data or an
acknowledgement, with the segment size for the window. -/
theorem established_eq (fs : Fs) (u : Stack) (i : Fin 2) (c : Conn) (d : AppData)
    (hfin : b.has tcpFin = false) (acked malloc : Bool) :
    ∃ c' : Conn, c.Keeps c' ∧ c'.len = c.len ∧ c'.mss = newMss c b ∧
      established fs u i c b d acked malloc =
        if 0 < (skipUrgent b d).2.len ∨ acked = true then
          appsend u i c' (appcall fs u i c' b (skipUrgent b d).2
            { newdata := 0 < (skipUrgent b d).2.len, ackdata := acked } malloc)
        else drop u i c' [] := by
  refine ⟨{ c with
      rcvNxt := add32 (add32 c.rcvNxt (skipUrgent b d).1) (skipUrgent b d).2.len
      mss := newMss c b }, ⟨rfl, rfl, rfl⟩, rfl, rfl, ?_⟩
  rw [established, if_neg (by rw [hfin]; exact Bool.false_ne_true)]
  simp only [newMss, Bool.or_eq_true, decide_eq_true_eq]

/-- What a call leaves behind, from what the application did. -/
theorem appcall_eq {flags : Flags} {app : Httpd.State} {out : Out}
    (h : Httpd.httpdAppcall fs u.app (appEvent b d i c flags malloc) = (app, out)) :
    appcall fs u i c b d flags malloc =
      { app := app
        flags := flagsAfter flags out.reply
        slen := u16 ((out.send.getD []).length)
        accesses := appAccesses u.app (appEvent b d i c flags malloc) d.off } := by
  rw [appcall, h]

/-- The call for an acknowledgement, when what is left fits into one segment. -/
theorem appcall_lastAcked (hport : c.lport = 80) (hstate : u.app.state = .fileRequest)
    (hle : u.app.upload ≤ c.mss) (newdata : Bool) :
    (appcall fs u i c b d { newdata := newdata, ackdata := true } malloc).flags =
      { close := true } := by
  have hplain : (appEvent b d i c { newdata := newdata, ackdata := true } malloc).Plain :=
    ⟨hport, rfl, rfl, rfl, rfl, rfl⟩
  have hcall : Httpd.httpdAppcall fs u.app
      (appEvent b d i c { newdata := newdata, ackdata := true } malloc) =
        (Httpd.httpdStateReset (Httpd.commit u.app), { reply := .close }) := by
    refine (httpdAppcall_of_plain hplain hstate).trans ((if_pos rfl).trans ?_)
    exact (if_pos hstate).trans (if_pos hle)
  rw [appcall_eq hcall]
  rfl

/-- The call for an acknowledgement, when it does not. -/
theorem appcall_nextChunk (hport : c.lport = 80) (hstate : u.app.state = .fileRequest)
    (hlt : c.mss < u.app.upload) (newdata : Bool) :
    let s : Httpd.State :=
      { u.app with
        dataptr := u.app.dataptr.drop c.len
        upload := Httpd.u32 ((u.app.upload : ℤ) - c.len) }
    let r := appcall fs u i c b d { newdata := newdata, ackdata := true } malloc
    r.app = s ∧ r.flags = { newdata := newdata, ackdata := true } ∧
      r.slen = u16 (Httpd.chunk s c.mss).length := by
  have hplain : (appEvent b d i c { newdata := newdata, ackdata := true } malloc).Plain :=
    ⟨hport, rfl, rfl, rfl, rfl, rfl⟩
  intro s r
  have hcall : Httpd.httpdAppcall fs u.app
      (appEvent b d i c { newdata := newdata, ackdata := true } malloc) =
        (s, { send := some (Httpd.chunk s c.mss) }) := by
    refine (httpdAppcall_of_plain hplain hstate).trans ((if_pos rfl).trans ?_)
    exact (if_pos hstate).trans (if_neg (Nat.not_le.mpr hlt))
  have hr : r = _ := appcall_eq hcall
  rw [hr]
  exact ⟨rfl, rfl, rfl⟩

/-- The call for data that acknowledge nothing: they are not looked at. -/
theorem appcall_newdata (hport : c.lport = 80) (hstate : u.app.state = .fileRequest)
    (newdata : Bool) :
    let r := appcall fs u i c b d { newdata := newdata } malloc
    r.app = u.app ∧ r.flags = { newdata := newdata } ∧ r.slen = 0 := by
  have hplain : (appEvent b d i c { newdata := newdata } malloc).Plain :=
    ⟨hport, rfl, rfl, rfl, rfl, rfl⟩
  intro r
  have hr : r = _ := appcall_eq (httpdAppcall_of_newdata hplain hstate rfl rfl)
  rw [hr]
  exact ⟨rfl, rfl, rfl⟩

/-- The call for a retransmission. -/
theorem appcall_rexmit (hport : c.lport = 80) (hstate : u.app.state = .fileRequest) :
    (appcall fs u i c b d { rexmit := true } malloc).app = u.app := by
  have hplain : (appEvent b d i c { rexmit := true } malloc).Plain :=
    ⟨hport, rfl, rfl, rfl, rfl, rfl⟩
  have hcall : Httpd.httpdAppcall fs u.app (appEvent b d i c { rexmit := true } malloc) =
      (u.app, { send := some (Httpd.chunk u.app c.mss) }) :=
    (httpdAppcall_of_plain hplain hstate).trans (if_pos hstate)
  rw [appcall_eq hcall]

/-- The call when nothing is outstanding: it counts, or gives up. -/
theorem appcall_poll (hport : c.lport = 80) :
    let r := appcall fs u i c b d { poll := true } malloc
    r.flags = { abort := true } ∨
      r.app = { u.app with count := u.app.count + 1 } ∧ r.flags = { poll := true } ∧ r.slen = 0 := by
  have hcall : Httpd.httpdAppcall fs u.app (appEvent b d i c { poll := true } malloc) =
      if 100 ≤ u.app.count then Httpd.resetAbort u.app
      else ({ u.app with count := u.app.count + 1 }, {}) := if_pos hport
  intro r
  by_cases hcount : 100 ≤ u.app.count
  · have hr : r = _ := appcall_eq (hcall.trans (if_pos hcount))
    rw [hr]
    exact Or.inl rfl
  · have hr : r = _ := appcall_eq (hcall.trans (if_neg hcount))
    rw [hr]
    exact Or.inr ⟨rfl, rfl, rfl⟩

/-- The call for a `GET` request. -/
theorem appcall_get {name : List UInt8} (hport : c.lport = 80) (hstate : u.app.state = .none)
    (hget : Httpd.isGet (appEvent b d i c { newdata := true } malloc).appdata = true)
    (hname : Httpd.requestName (appEvent b d i c { newdata := true } malloc).appdata = some name) :
    let s := Httpd.servePage u.app (Httpd.requestFile fs name)
    let r := appcall fs u i c b d { newdata := true } malloc
    r.app = s ∧ r.flags = { newdata := true } ∧ r.slen = u16 (Httpd.chunk s c.mss).length := by
  intro s r
  have hcall : Httpd.httpdAppcall fs u.app (appEvent b d i c { newdata := true } malloc) =
      (s, { send := some (Httpd.chunk s c.mss) }) := by
    have hnone : (true && decide (u.app.state = .none)) = true := by
      rw [hstate]
      rfl
    have hreq : Httpd.httpdAppcall fs u.app (appEvent b d i c { newdata := true } malloc) =
        Httpd.handleRequest fs u.app (appEvent b d i c { newdata := true } malloc) :=
      (if_pos hport).trans (if_pos hnone)
    rw [hreq, Httpd.handleRequest, if_pos hget, Httpd.handleGet, hname]
    rfl
  have hr : r = _ := appcall_eq hcall
  rw [hr]
  exact ⟨rfl, rfl, rfl⟩

/-! ### Segments -/

/-- The last chunk was acknowledged, or so the application thinks. -/
theorem established_lastAcked (hport : c.lport = 80) (hstate : u.app.state = .fileRequest)
    (hfin : b.has tcpFin = false) (hle : u.app.upload ≤ newMss c b) :
    ((established fs u i c b d true malloc).stack.conns i).tcpState = .finWait1 ∧
      Closes (established fs u i c b d true malloc).sent ∧
      inFlight [] (established fs u i c b d true malloc).sent = [] := by
  obtain ⟨c', hkeeps, -, hmss, heq⟩ := established_eq fs u i c d hfin true malloc
  generalize (skipUrgent b d).2 = d' at heq
  have hflags := @appcall_lastAcked fs u i c' b d' malloc (hkeeps.lport.trans hport) hstate
    (hmss ▸ hle) (decide (0 < d'.len))
  rw [heq, if_pos (Or.inr rfl), appsend_close (by rw [hflags]) (by rw [hflags])]
  refine ⟨by rw [Stack.setConn_self], ?_, rfl⟩
  exact (by decide : (tcpFin ||| tcpAck) &&& tcpFin ≠ 0)

theorem length_chunk {s : Httpd.State} (h : s.upload = s.dataptr.length) (mss : ℕ) :
    (Httpd.chunk s mss).length = min mss s.upload := by
  rw [Httpd.chunk, List.length_take, ← h]
  split <;> omega

theorem u16_of_lt {n : ℕ} (h : n < 2 ^ 16) : u16 n = n := by
  rw [u16]
  omega

/-- The data in flight were acknowledged, and more is to come. -/
theorem established_nextChunk (hport : c.lport = 80) (hstate : u.app.state = .fileRequest)
    (hfin : b.has tcpFin = false) (hmss : c.initialmss < 2 ^ 16)
    (hupload : u.app.upload = u.app.dataptr.length) (hlt : u.app.upload < 2 ^ 32)
    (hlen : c.len ≤ u.app.upload) (hmore : newMss c b < u.app.upload) :
    let r := established fs u i c b d true malloc
    c.Keeps (r.stack.conns i) ∧ ¬ Closes r.sent ∧ r.stack.app.state = .fileRequest ∧
      r.stack.app.dataptr = u.app.dataptr.drop c.len ∧
      r.stack.app.upload = u.app.upload - c.len ∧
      ((r.stack.conns i).len = 0 ∨ (r.stack.conns i).len ≤ u.app.upload - c.len ∧
        inFlight [] r.sent = r.stack.app.dataptr.take (r.stack.conns i).len) := by
  obtain ⟨c', hkeeps, hlen', hmss', heq⟩ := established_eq fs u i c d hfin true malloc
  generalize (skipUrgent b d).2 = d' at heq
  obtain ⟨happ, hflags, hslen⟩ := @appcall_nextChunk fs u i c' b d' malloc
    (hkeeps.lport.trans hport) hstate (hmss' ▸ hmore) (decide (0 < d'.len))
  have hleft : Httpd.u32 ((u.app.upload : ℤ) - c.len) = u.app.upload - c.len := by
    rw [Httpd.u32]
    omega
  have hsmall : newMss c b < 2 ^ 16 := newMss_lt hmss
  rw [hlen', hleft] at happ hslen
  -- the application hands over what fits into a segment, of what is left
  rw [length_chunk (by rw [List.length_drop, hupload]), hmss', u16_of_lt (by omega)] at hslen
  change _ = min (newMss c b) (u.app.upload - c.len) at hslen
  rw [if_pos (Or.inr rfl)] at heq
  generalize appcall fs u i c' b d' { newdata := decide (0 < d'.len), ackdata := true } malloc = a
    at happ hflags hslen heq
  obtain ⟨hconn, hstack, hcloses, hflight⟩ :=
    @appsend_open u i c' a (by rw [hflags]) (by rw [hflags])
  have hnew : newLen c' a = min (newMss c b) (u.app.upload - c.len) := by
    rw [newLen, hflags, hslen, hmss']
    split
    · omega
    · rw [if_pos (Or.inl rfl)]
      omega
  intro r
  have hr : r = appsend u i c' a := heq
  rw [hr, hconn, hstack]
  refine ⟨hkeeps.trans ⟨rfl, rfl, rfl⟩, hcloses, by rw [happ]; exact hstate, by rw [happ],
    by rw [happ], ?_⟩
  change newLen c' a = 0 ∨ newLen c' a ≤ _ ∧ _ = a.app.dataptr.take (newLen c' a)
  by_cases hzero : newLen c' a = 0
  · exact Or.inl hzero
  · have hdata : a.app.dataptr ≠ [] := by
      rw [happ, ne_eq, List.drop_eq_nil_iff, ← hupload]
      omega
    refine Or.inr ⟨by omega, ?_⟩
    rw [hflight, if_pos ⟨by omega, hdata⟩]

/-- A segment that acknowledges nothing. -/
theorem established_quiet (hport : c.lport = 80) (hstate : u.app.state = .fileRequest)
    (hfin : b.has tcpFin = false) (flight : List UInt8) :
    let r := established fs u i c b d false malloc
    c.Keeps (r.stack.conns i) ∧ ¬ Closes r.sent ∧ r.stack.app = u.app ∧
      ((r.stack.conns i).len = 0 ∨ (r.stack.conns i).len = c.len) ∧
      inFlight flight r.sent = flight := by
  obtain ⟨c', hkeeps, hlen', -, heq⟩ := established_eq fs u i c d hfin false malloc
  generalize (skipUrgent b d).2 = d' at heq
  obtain ⟨happ, hflags, hslen⟩ := @appcall_newdata fs u i c' b d' malloc
    (hkeeps.lport.trans hport) hstate (decide (0 < d'.len))
  intro r
  by_cases hdata : 0 < d'.len
  · rw [if_pos (Or.inl hdata)] at heq
    generalize appcall fs u i c' b d' { newdata := decide (0 < d'.len) } malloc = a
      at happ hflags hslen heq
    obtain ⟨hconn, hstack, hcloses, hflight⟩ :=
      @appsend_open u i c' a (by rw [hflags]) (by rw [hflags])
    -- nothing to send: uIP forgets what was outstanding
    have hnew : newLen c' a = 0 := if_pos hslen
    have hr : r = appsend u i c' a := heq
    rw [hr, hconn, hstack]
    refine ⟨hkeeps.trans ⟨rfl, rfl, rfl⟩, hcloses, happ, Or.inl hnew, ?_⟩
    rw [hflight, hnew]
    exact if_neg fun h => Nat.lt_irrefl 0 h.1
  · have hr : r = drop u i c' [] := heq.trans (if_neg (by simpa using hdata))
    rw [hr, drop, Stack.setConn_self, Stack.setConn_app]
    exact ⟨hkeeps, not_false, rfl, Or.inr hlen', rfl⟩

/-- A segment of an established connection. -/
theorem found_established (s : Segment) (hest : (u.conns i).tcpState = .established) :
    found fs u i s.buf s.ipLen s.malloc =
      if 0 < s.len ∧ s.buf.seqno ≠ (u.conns i).rcvNxt then sendNodata u i (u.conns i) tcpAck []
      else established fs u i (ackReceived (u.conns i) s.buf).1 s.buf
        ⟨40 + llhLen, s.len, u16_lt _⟩ (ackReceived (u.conns i) s.buf).2 s.malloc := by
  have hest' : (ackReceived (u.conns i) s.buf).1.tcpState = .established :=
    (ackReceived_keeps (u.conns i) s.buf).1.tcpState.trans hest
  rw [found, if_neg (by rw [s.rst]; exact Bool.false_ne_true)]
  dsimp only
  rw [hest']
  rfl

/-- A segment for a connection that has been closed or given up changes little: an
acknowledgement may be sent. -/
theorem found_ended (s : Segment) (h : (u.conns i).tcpState = .finWait1 ∨
      (u.conns i).tcpState = .finWait2 ∨ (u.conns i).tcpState = .closed) :
    let r := found fs u i s.buf s.ipLen s.malloc
    ((r.stack.conns i).tcpState = (u.conns i).tcpState ∨
        (u.conns i).tcpState = .finWait1 ∧ (r.stack.conns i).tcpState = .finWait2) ∧
      ¬ Closes r.sent ∧ ∀ flight, inFlight flight r.sent = flight := by
  have hnotFin : ¬ tcpAck &&& tcpFin ≠ 0 := by decide
  have hfin : ¬ s.buf.has tcpFin = true := by
    rw [s.fin]
    exact Bool.false_ne_true
  obtain ⟨hkeeps, -, -⟩ := ackReceived_keeps (u.conns i) s.buf
  intro r
  have hr : r = found fs u i s.buf s.ipLen s.malloc := rfl
  rw [found, if_neg (by rw [s.rst]; exact Bool.false_ne_true)] at hr
  dsimp only at hr
  -- data that are not the next ones are acknowledged, whatever the state
  split at hr
  · rw [hr, sendNodata, Stack.setConn_self]
    exact ⟨Or.inl rfl, hnotFin, fun _ => rfl⟩
  rw [hkeeps.tcpState] at hr
  rcases h with hs | hs | hs
  · rw [hs] at hr
    dsimp only at hr
    rw [finWait1, if_neg hfin] at hr
    split at hr
    · rw [hr, drop, Stack.setConn_self]
      exact ⟨Or.inr ⟨hs, rfl⟩, not_false, fun _ => rfl⟩
    · split at hr
      · rw [hr, sendNodata, Stack.setConn_self]
        exact ⟨Or.inl hkeeps.tcpState, hnotFin, fun _ => rfl⟩
      · rw [hr, drop, Stack.setConn_self]
        exact ⟨Or.inl hkeeps.tcpState, not_false, fun _ => rfl⟩
  · rw [hs] at hr
    dsimp only at hr
    rw [finWait2, if_neg hfin] at hr
    split at hr
    · rw [hr, sendNodata, Stack.setConn_self]
      exact ⟨Or.inl hkeeps.tcpState, hnotFin, fun _ => rfl⟩
    · rw [hr, drop, Stack.setConn_self]
      exact ⟨Or.inl hkeeps.tcpState, not_false, fun _ => rfl⟩
  · rw [hs] at hr
    dsimp only at hr
    rw [hr, drop, Stack.setConn_self]
    exact ⟨Or.inl hkeeps.tcpState, not_false, fun _ => rfl⟩

/-! ### The timer -/

/-- The timer of a connection with data outstanding. -/
theorem uipPeriodic_outstanding (hest : (u.conns i).tcpState = .established)
    (hlen : (u.conns i).len ≠ 0) :
    (uipPeriodic fs u i b).sent = some (.tcp (tcpRst ||| tcpAck) (u.conns i).sndNxt
        (u.conns i).rcvNxt []) ∧ ((uipPeriodic fs u i b).stack.conns i).tcpState = .closed ∨
      ∃ c' : Conn, (u.conns i).Keeps c' ∧ c'.len = (u.conns i).len ∧
        (uipPeriodic fs u i b =
            drop { u with iss := add32 u.iss 1 } i c' [] ∨
          let r := appcall fs { u with iss := add32 u.iss 1 } i c' b .nothing { rexmit := true } true
          uipPeriodic fs u i b =
            apprexmit { u with iss := add32 u.iss 1, app := r.app } i c' r r.slen) := by
  rw [uipPeriodic]
  dsimp only
  rw [if_neg (by simp [hest]), if_neg (by simp [hest]), if_pos hlen]
  by_cases htimer : (u.conns i).timer = 0
  · rw [if_pos (by simpa using htimer)]
    by_cases hnrtx : (u.conns i).nrtx = 8
    · -- eight retransmissions: the connection is given up with an RST
      rw [if_pos (Or.inl hnrtx)]
      refine Or.inl ⟨rfl, ?_⟩
      rw [sendNodata, Stack.setConn_self]
    · rw [if_neg (by simp [hest, hnrtx]), if_neg (by simp [hest]), if_pos (by exact hest)]
      exact Or.inr ⟨{ u.conns i with
          timer := rtoInit <<< (if 4 < (u.conns i).nrtx then 4 else (u.conns i).nrtx)
          nrtx := (u.conns i).nrtx + 1 }, ⟨rfl, rfl, rfl⟩, rfl, Or.inr rfl⟩
  · rw [if_neg (by simpa using htimer)]
    exact Or.inr ⟨{ u.conns i with timer := (u.conns i).timer - 1 }, ⟨rfl, rfl, rfl⟩, rfl,
      Or.inl rfl⟩

/-- The timer of a connection with nothing outstanding. -/
theorem uipPeriodic_idle (hest : (u.conns i).tcpState = .established)
    (hlen : (u.conns i).len = 0) :
    uipPeriodic fs u i b =
      appsend { u with iss := add32 u.iss 1 } i (u.conns i)
        (appcall fs { u with iss := add32 u.iss 1 } i (u.conns i) b .nothing { poll := true }
          true) := by
  rw [uipPeriodic]
  dsimp only
  rw [if_neg (by simp [hest]), if_neg (by simp [hest]), if_neg (by simp [hlen]), if_pos hest]

/-- The timer of a connection that has been closed: the FIN is sent once more, or the
connection is given up. -/
theorem uipPeriodic_closing (h : (u.conns i).tcpState = .finWait1 ∨
      (u.conns i).tcpState = .finWait2) :
    let r := uipPeriodic fs u i b
    ((r.stack.conns i).tcpState = (u.conns i).tcpState ∨
        (r.stack.conns i).tcpState = .closed) ∧ ∀ flight, inFlight flight r.sent = flight := by
  intro r
  have hr : r = uipPeriodic fs u i b := rfl
  rw [uipPeriodic] at hr
  dsimp only at hr
  rcases h with hs | hs
  · -- `FIN_WAIT_1`: the FIN is sent again until it is given up
    rw [if_neg (by simp [hs]), if_neg (by simp [hs])] at hr
    split at hr
    · split at hr
      · split at hr
        · rw [hr, sendNodata, Stack.setConn_self]
          exact ⟨Or.inr rfl, fun _ => rfl⟩
        · rw [if_neg (by simp [hs]), if_neg (by simp [hs])] at hr
          rw [hr, sendNodata, Stack.setConn_self]
          exact ⟨Or.inl rfl, fun _ => rfl⟩
      · rw [hr, drop, Stack.setConn_self]
        exact ⟨Or.inl rfl, fun _ => rfl⟩
    · rw [if_neg (by simp [hs])] at hr
      rw [hr]
      exact ⟨Or.inl rfl, fun _ => rfl⟩
  · -- `FIN_WAIT_2`: the connection waits until its time is over
    rw [if_pos (Or.inr hs)] at hr
    rw [hr, drop, Stack.setConn_self]
    refine ⟨?_, fun _ => rfl⟩
    split
    · exact Or.inr rfl
    · exact Or.inl rfl

/-- The timer of a connection that has been given up. -/
theorem uipPeriodic_closed (h : (u.conns i).tcpState = .closed) :
    uipPeriodic fs u i b = { stack := { u with iss := add32 u.iss 1 } } := by
  rw [uipPeriodic]
  dsimp only
  rw [if_neg (by simp [h]), if_pos h]

end Uip
