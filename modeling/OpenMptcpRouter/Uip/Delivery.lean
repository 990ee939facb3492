/-
A page on its way to the browser.

`httpd_appcall` hands uIP as much of the page as fits into one segment; uIP remembers in
`uip_conn->len` how much it sent and calls again when that is acknowledged, or when it has
to be sent once more.  The segment size follows the window of the peer, so it may be another
one each time.

A `Transfer` is the stack together with the data in flight and the data acknowledged so far;
`deliver` is what happens to it when a segment comes in or the timer goes off.

* `serving_of_get` — how a transfer begins;
* `delivered_iff` — in any run the server closes the connection only after all of the page has
  been acknowledged, in order and once, iff no acknowledgement comes in that makes the rest
  of the page, data in flight included, look like one segment while it was not sent as one;
* `page_cut_off` — a window that opens while the page is on its way.
-/
import OpenMptcpRouter.Uip.Sending

namespace Uip

open Httpd (Fs)

/-- What can happen to a connection: a segment comes in, or its timer goes off. -/
inductive Incident
  | segment (s : Segment)
  | timer (b : Buf)

/-- A page on its way: the stack, the data that were sent last until they are acknowledged,
and all data acknowledged before. -/
structure Transfer where
  stack : Stack
  flight : List UInt8
  acked : List UInt8

/-- The segment is taken, and it acknowledges the outstanding data. -/
def Acknowledges (c : Conn) (s : Segment) : Prop :=
  (0 < s.len → s.buf.seqno = c.rcvNxt) ∧
    s.buf.has tcpAck = true ∧ c.len ≠ 0 ∧ s.buf.ackno = add32 c.sndNxt c.len

instance (c : Conn) (s : Segment) : Decidable (Acknowledges c s) := by
  unfold Acknowledges; infer_instance

/-- What happens to the page that connection `i` is sending. -/
def deliver (fs : Fs) (i : Fin 2) (t : Transfer) : Incident → Transfer × Option Packet
  | .segment s =>
    let r := found fs t.stack i s.buf s.ipLen s.malloc
    if Acknowledges (t.stack.conns i) s then
      (⟨r.stack, inFlight [] r.sent, t.acked ++ t.flight⟩, r.sent)
    else (⟨r.stack, inFlight t.flight r.sent, t.acked⟩, r.sent)
  | .timer b =>
    let r := uipPeriodic fs t.stack i b
    (⟨r.stack, inFlight t.flight r.sent, t.acked⟩, r.sent)

/-- The page is being sent: its first segment is in flight, nothing has been acknowledged. -/
structure Serving (i : Fin 2) (file : List UInt8) (t : Transfer) : Prop where
  established : (t.stack.conns i).tcpState = .established
  lport : (t.stack.conns i).lport = 80
  initialmss_lt : (t.stack.conns i).initialmss < 2 ^ 16
  state : t.stack.app.state = .fileRequest
  dataptr : t.stack.app.dataptr = file
  upload : t.stack.app.upload = file.length
  upload_lt : file.length < 2 ^ 32
  len_le : (t.stack.conns i).len ≤ file.length
  flight : t.flight = file.take (t.stack.conns i).len
  acked : t.acked = []

/-- An acknowledgement of less than what is left comes in, and what is left would now fit
into one segment. -/
def Premature (i : Fin 2) (t : Transfer) : Incident → Prop
  | .segment s =>
    (t.stack.conns i).tcpState = .established ∧ t.stack.app.state = .fileRequest ∧
      Acknowledges (t.stack.conns i) s ∧ (t.stack.conns i).len < t.stack.app.upload ∧
        t.stack.app.upload ≤ newMss (t.stack.conns i) s.buf
  | .timer _ => False

instance (i : Fin 2) (t : Transfer) : ∀ e : Incident, Decidable (Premature i t e)
  | .segment s => by unfold Premature; infer_instance
  | .timer _ => isFalse not_false

/-! ### The invariant -/

variable {fs : Fs} {u : Stack} {i : Fin 2} {c : Conn} {file : List UInt8} {t : Transfer}

/-- The page is on its way: what has been acknowledged and what is left make up the page, and
the data in flight, if there are any, are the next of it. -/
structure Running (i : Fin 2) (file : List UInt8) (t : Transfer) : Prop where
  established : (t.stack.conns i).tcpState = .established
  lport : (t.stack.conns i).lport = 80
  initialmss_lt : (t.stack.conns i).initialmss < 2 ^ 16
  state : t.stack.app.state = .fileRequest
  parts : t.acked ++ t.stack.app.dataptr = file
  upload : t.stack.app.upload = t.stack.app.dataptr.length
  upload_lt : t.stack.app.upload < 2 ^ 32
  flight : (t.stack.conns i).len = 0 ∨
    (t.stack.conns i).len ≤ t.stack.app.upload ∧
      t.flight = t.stack.app.dataptr.take (t.stack.conns i).len

/-- The connection was closed when all had been acknowledged. -/
structure Finished (i : Fin 2) (file : List UInt8) (t : Transfer) : Prop where
  closing : (t.stack.conns i).tcpState = .finWait1 ∨ (t.stack.conns i).tcpState = .finWait2
  acked : t.acked = file
  flight : t.flight = []

/-- What holds of a transfer as long as nothing is premature; a connection can also be given
up. -/
def Sound (i : Fin 2) (file : List UInt8) (t : Transfer) : Prop :=
  Running i file t ∨ Finished i file t ∨ (t.stack.conns i).tcpState = .closed

theorem Serving.running (h : Serving i file t) :
    Running i file t where
  established := h.established
  lport := h.lport
  initialmss_lt := h.initialmss_lt
  state := h.state
  parts := by rw [h.acked, h.dataptr, List.nil_append]
  upload := by rw [h.upload, h.dataptr]
  upload_lt := by
    rw [h.upload]
    exact h.upload_lt
  flight := Or.inr ⟨by rw [h.upload]; exact h.len_le, by rw [h.flight, h.dataptr]⟩

/-! ### Segments -/

theorem acknowledges_iff {s : Segment} :
    Acknowledges c s ↔
      ¬ (0 < s.len ∧ s.buf.seqno ≠ c.rcvNxt) ∧ (ackReceived c s.buf).2 = true := by
  have hack : (ackReceived c s.buf).2 = true ↔
      s.buf.has tcpAck = true ∧ c.len ≠ 0 ∧ s.buf.ackno = add32 c.sndNxt c.len := by
    rw [ackReceived]
    split
    · exact iff_of_true rfl ‹_›
    · exact iff_of_false Bool.false_ne_true ‹_›
  rw [hack, Acknowledges, not_and, ne_eq, not_not]

/-- Whatever leaves the connection and the page as they are keeps the page on its way; uIP may
forget what was outstanding. -/
theorem Running.keep (h : Running i file t) {stack : Stack} {flight : List UInt8} {c' : Conn}
    (hconn : stack.conns i = c') (hkeeps : (t.stack.conns i).Keeps c')
    (hstate : stack.app.state = t.stack.app.state)
    (hdata : stack.app.dataptr = t.stack.app.dataptr) (hupload : stack.app.upload = t.stack.app.upload)
    (hlen : c'.len = 0 ∨ c'.len = (t.stack.conns i).len)
    (hflight : c'.len ≠ 0 → flight = t.flight) : Running i file ⟨stack, flight, t.acked⟩ := by
  subst hconn
  exact
    { established := hkeeps.tcpState.trans h.established
      lport := hkeeps.lport.trans h.lport
      initialmss_lt := by
        rw [hkeeps.initialmss]
        exact h.initialmss_lt
      state := hstate.trans h.state
      parts := by rw [hdata, h.parts]
      upload := by rw [hupload, hdata, h.upload]
      upload_lt := by
        rw [hupload]
        exact h.upload_lt
      flight := by
        by_cases hzero : (stack.conns i).len = 0
        · exact Or.inl hzero
        · have hsame := hlen.resolve_left hzero
          obtain ⟨hle, htake⟩ := h.flight.resolve_left (hsame ▸ hzero)
          rw [hflight hzero, hupload, hdata, hsame]
          exact Or.inr ⟨hle, htake⟩ }

/-- The acknowledgement that is taken for the last one: it is, or the connection is closed with
part of the page not acknowledged. -/
theorem Running.deliver_last (h : Running i file t) {s : Segment}
    (hack : Acknowledges (t.stack.conns i) s)
    (hlast : t.stack.app.upload ≤ newMss (t.stack.conns i) s.buf) :
    let r := deliver fs i t (.segment s)
    Closes r.2 ∧ ((t.stack.conns i).len < t.stack.app.upload → r.1.acked ≠ file) ∧
      (t.stack.app.upload ≤ (t.stack.conns i).len → Finished i file r.1) := by
  obtain ⟨hkeeps, hlen, -⟩ := ackReceived_keeps (t.stack.conns i) s.buf
  obtain ⟨hseq, hacked⟩ := acknowledges_iff.mp hack
  obtain ⟨hle, htake⟩ := h.flight.resolve_left hack.2.2.1
  obtain ⟨hclosing, hcloses, hflight⟩ := @established_lastAcked fs t.stack i _ s.buf
    ⟨40 + llhLen, s.len, u16_lt _⟩ s.malloc (hkeeps.lport.trans h.lport) h.state s.fin
    (newMss_eq hkeeps ▸ hlast)
  intro r
  have hr : r = _ := if_pos hack
  rw [found_established s h.established, if_neg hseq, hacked] at hr
  rw [hr]
  refine ⟨hcloses, ?_, ?_⟩
  · -- then some of the file has never been in flight
    intro hless heq
    have hparts := congrArg List.length h.parts
    have hacklen := congrArg List.length heq
    simp only [List.length_append, htake, List.length_take, ← h.upload] at hparts hacklen
    omega
  · intro hall
    have hfile : t.acked ++ t.flight = file := by
      rw [htake, List.take_of_length_le (by rwa [← h.upload]), h.parts]
    exact ⟨Or.inl hclosing, hfile, hflight⟩

/-- An acknowledgement with more to come: the page goes on behind the data acknowledged. -/
theorem Running.deliver_next (h : Running i file t) {s : Segment}
    (hack : Acknowledges (t.stack.conns i) s)
    (hmore : newMss (t.stack.conns i) s.buf < t.stack.app.upload) :
    let r := deliver fs i t (.segment s)
    ¬ Closes r.2 ∧ Running i file r.1 := by
  obtain ⟨hkeeps, hlen, -⟩ := ackReceived_keeps (t.stack.conns i) s.buf
  obtain ⟨hseq, hacked⟩ := acknowledges_iff.mp hack
  obtain ⟨hle, htake⟩ := h.flight.resolve_left hack.2.2.1
  have hport := hkeeps.lport.trans h.lport
  -- what was in flight is taken off the front of the file, and the next chunk is sent
  obtain ⟨hkeeps', hcloses, hstate, hdata, hupload, hflight⟩ :=
    @established_nextChunk fs t.stack i _ s.buf ⟨40 + llhLen, s.len, u16_lt _⟩ s.malloc hport
      h.state s.fin (hkeeps.initialmss ▸ h.initialmss_lt) h.upload h.upload_lt (hlen ▸ hle)
      (newMss_eq hkeeps ▸ hmore)
  rw [hlen] at hdata hupload hflight
  have hupload_lt := h.upload_lt
  intro r
  have hr : r = _ := if_pos hack
  rw [found_established s h.established, if_neg hseq, hacked] at hr
  rw [hr]
  exact ⟨hcloses,
    { established := hkeeps'.tcpState.trans (hkeeps.tcpState.trans h.established)
      lport := hkeeps'.lport.trans hport
      initialmss_lt := by
        rw [hkeeps'.initialmss, hkeeps.initialmss]
        exact h.initialmss_lt
      state := hstate
      parts := by rw [hdata, htake, List.append_assoc, List.take_append_drop, h.parts]
      upload := by rw [hdata, List.length_drop, ← h.upload, hupload]
      upload_lt := by
        rw [hupload]
        omega
      flight := hupload.symm ▸ hflight }⟩

/-- Any other segment leaves the page as it is. -/
theorem Running.deliver_other (h : Running i file t) {s : Segment}
    (hack : ¬ Acknowledges (t.stack.conns i) s) :
    let r := deliver fs i t (.segment s)
    ¬ Closes r.2 ∧ Running i file r.1 := by
  obtain ⟨hkeeps, hlen, -⟩ := ackReceived_keeps (t.stack.conns i) s.buf
  intro r
  have hr : r = _ := if_neg hack
  rw [found_established s h.established] at hr
  by_cases hseq : 0 < s.len ∧ s.buf.seqno ≠ (t.stack.conns i).rcvNxt
  · -- data out of order: only an acknowledgement is sent
    rw [if_pos hseq, sendNodata] at hr
    rw [hr]
    exact ⟨(by decide : ¬ tcpAck &&& tcpFin ≠ 0),
      h.keep (Stack.setConn_self ..) (.refl _) rfl rfl rfl (Or.inr rfl) fun _ => rfl⟩
  · have hacked : (ackReceived (t.stack.conns i) s.buf).2 = false := by
      rw [← Bool.not_eq_true]
      exact fun hacked => hack (acknowledges_iff.mpr ⟨hseq, hacked⟩)
    obtain ⟨hkeeps', hcloses, happ, hlen', hflight⟩ := @established_quiet fs t.stack i _ s.buf
      ⟨40 + llhLen, s.len, u16_lt _⟩ s.malloc (hkeeps.lport.trans h.lport) h.state s.fin t.flight
    rw [hlen] at hlen'
    rw [if_neg hseq, hacked] at hr
    rw [hr]
    exact ⟨hcloses, h.keep rfl (hkeeps.trans hkeeps') (by rw [happ]) (by rw [happ]) (by rw [happ])
      hlen' fun _ => hflight⟩

/-! ### The timer -/

/-- The timer of a connection with a page on its way: time passes, the data in flight are sent
once more, or the connection is given up. -/
theorem Running.deliver_timer (h : Running i file t) (b : Buf) :
    let r := deliver fs i t (.timer b)
    ¬ Closes r.2 ∧ (Running i file r.1 ∨ (r.1.stack.conns i).tcpState = .closed) := by
  have hrst : ¬ (tcpRst ||| tcpAck) &&& tcpFin ≠ 0 := by decide
  intro r
  have hr : r = (⟨(uipPeriodic fs t.stack i b).stack,
      inFlight t.flight (uipPeriodic fs t.stack i b).sent, t.acked⟩,
      (uipPeriodic fs t.stack i b).sent) := rfl
  by_cases hlen : (t.stack.conns i).len = 0
  · -- nothing is in flight: the application is polled
    rw [uipPeriodic_idle h.established hlen] at hr
    rcases @appcall_poll fs { t.stack with iss := add32 t.stack.iss 1 } i (t.stack.conns i) b
      .nothing true h.lport with hflags | ⟨happ, hflags, hslen⟩
    · rw [appsend_abort (by rw [hflags])] at hr
      rw [hr]
      refine ⟨hrst, Or.inr ?_⟩
      rw [Stack.setConn_self]
    · generalize appcall fs { t.stack with iss := add32 t.stack.iss 1 } i (t.stack.conns i) b
        .nothing { poll := true } true = a at happ hflags hslen hr
      obtain ⟨hconn, hstack, hcloses, -⟩ := @appsend_open
        { t.stack with iss := add32 t.stack.iss 1 } i (t.stack.conns i) a (by rw [hflags])
        (by rw [hflags])
      have hnew : newLen (t.stack.conns i) a = 0 := if_pos hslen
      rw [hr]
      exact ⟨hcloses, Or.inl (h.keep hconn ⟨rfl, rfl, rfl⟩ (by rw [hstack, happ])
        (by rw [hstack, happ]) (by rw [hstack, happ]) (Or.inl hnew) fun hne => absurd hnew hne)⟩
  · -- the connection is given up, the timer runs on, or the data are sent again
    rcases @uipPeriodic_outstanding fs t.stack i b h.established hlen with
      ⟨hsent, hclosed⟩ | ⟨c', hkeeps, hlen', hdrop | hagain⟩
    · rw [hr, hsent]
      exact ⟨hrst, Or.inr hclosed⟩
    · rw [hdrop, drop] at hr
      rw [hr]
      exact ⟨not_false, Or.inl (h.keep (Stack.setConn_self ..) hkeeps rfl rfl rfl (Or.inr hlen')
        fun _ => rfl)⟩
    · -- the data that are sent again are those in flight
      have happ := @appcall_rexmit fs { t.stack with iss := add32 t.stack.iss 1 } i c' b .nothing true
        (hkeeps.lport.trans h.lport) h.state
      rw [hagain] at hr
      generalize appcall fs { t.stack with iss := add32 t.stack.iss 1 } i c' b .nothing
        { rexmit := true } true = a at happ hr
      have hflight : inFlight t.flight (apprexmit { t.stack with
          iss := add32 t.stack.iss 1, app := a.app } i c' a a.slen).sent = t.flight := by
        rw [inFlight_apprexmit, happ, hlen', (h.flight.resolve_left hlen).2]
        exact ite_self _
      rw [hr, hflight]
      exact ⟨not_closes_apprexmit _ _, Or.inl (h.keep (apprexmit_conn _ _) hkeeps
        (by rw [apprexmit_app, happ]) (by rw [apprexmit_app, happ]) (by rw [apprexmit_app, happ])
        (Or.inr hlen') fun _ => rfl)⟩

/-! ### After the page -/

/-- Once the connection is closed, nothing more is acknowledged. -/
theorem Finished.deliver (h : Finished i file t) (e : Incident) :
    let r := Uip.deliver fs i t e
    r.1.acked = file ∧ (Finished i file r.1 ∨ (r.1.stack.conns i).tcpState = .closed) := by
  cases e with
  | segment s =>
    obtain ⟨hstate, -, hflight⟩ := @found_ended fs t.stack i s (h.closing.imp_right Or.inl)
    have hclosing : ((found fs t.stack i s.buf s.ipLen s.malloc).stack.conns i).tcpState = .finWait1 ∨
        ((found fs t.stack i s.buf s.ipLen s.malloc).stack.conns i).tcpState = .finWait2 := by
      rcases hstate with hsame | ⟨-, htwo⟩
      · rw [hsame]
        exact h.closing
      · exact Or.inr htwo
    have hacked : t.acked ++ t.flight = file := by rw [h.flight, List.append_nil, h.acked]
    intro r
    -- nothing is in flight any more, so an acknowledgement adds nothing
    by_cases hack : Acknowledges (t.stack.conns i) s
    · have hr : r = _ := if_pos hack
      rw [hr]
      exact ⟨hacked, Or.inl ⟨hclosing, hacked, hflight []⟩⟩
    · have hr : r = _ := if_neg hack
      rw [hr]
      exact ⟨h.acked, Or.inl ⟨hclosing, h.acked, (hflight _).trans h.flight⟩⟩
  | timer b =>
    obtain ⟨hstate, hflight⟩ := @uipPeriodic_closing fs t.stack i b h.closing
    refine ⟨h.acked, hstate.imp_left fun hsame => ⟨?_, h.acked, (hflight _).trans h.flight⟩⟩
    exact hsame.symm ▸ h.closing

/-- A connection that was given up stays so, and is not closed. -/
theorem deliver_closed (h : (t.stack.conns i).tcpState = .closed) (e : Incident) :
    let r := deliver fs i t e
    ¬ Closes r.2 ∧ (r.1.stack.conns i).tcpState = .closed := by
  cases e with
  | segment s =>
    obtain ⟨hstate, hcloses, -⟩ := @found_ended fs t.stack i s (Or.inr (Or.inr h))
    have hclosed : ((found fs t.stack i s.buf s.ipLen s.malloc).stack.conns i).tcpState = .closed := by
      rcases hstate with hsame | ⟨hone, -⟩
      · rw [hsame, h]
      · rw [h] at hone
        cases hone
    intro r
    by_cases hack : Acknowledges (t.stack.conns i) s
    · have hr : r = _ := if_pos hack
      rw [hr]
      exact ⟨hcloses, hclosed⟩
    · have hr : r = _ := if_neg hack
      rw [hr]
      exact ⟨hcloses, hclosed⟩
  | timer b =>
    intro r
    have hr : r = (⟨(uipPeriodic fs t.stack i b).stack,
        inFlight t.flight (uipPeriodic fs t.stack i b).sent, t.acked⟩,
        (uipPeriodic fs t.stack i b).sent) := rfl
    rw [uipPeriodic_closed h] at hr
    rw [hr]
    exact ⟨not_false, h⟩

/-! ### How a page begins -/

/-- **How a transfer begins.**  A `GET` request for a page comes in on an established
connection with nothing outstanding. -/
theorem serving_of_get {s : Segment} {name : List UInt8}
    (hest : (u.conns i).tcpState = .established) (hport : (u.conns i).lport = 80)
    (hmss : (u.conns i).initialmss < 2 ^ 16) (hlen : (u.conns i).len = 0)
    (hstate : u.app.state = .none) (hseq : s.buf.seqno = (u.conns i).rcvNxt)
    (hdata : 0 < (skipUrgent s.buf ⟨40 + llhLen, s.len, u16_lt _⟩).2.len)
    (hget : Httpd.isGet (appEvent s.buf (skipUrgent s.buf ⟨40 + llhLen, s.len, u16_lt _⟩).2 i
      (u.conns i) { newdata := true } s.malloc).appdata = true)
    (hname : Httpd.requestName (appEvent s.buf (skipUrgent s.buf ⟨40 + llhLen, s.len, u16_lt _⟩).2 i
      (u.conns i) { newdata := true } s.malloc).appdata = some name)
    (hpage : (Httpd.requestFile fs name).data.length < 2 ^ 32) :
    let r := found fs u i s.buf s.ipLen s.malloc
    Serving i (Httpd.requestFile fs name).data ⟨r.stack, inFlight [] r.sent, []⟩ := by
  have hnot : ¬ Acknowledges (u.conns i) s := fun hack => hack.2.2.1 hlen
  have hignored : ¬ (0 < s.len ∧ s.buf.seqno ≠ (u.conns i).rcvNxt) := fun h => h.2 hseq
  obtain ⟨hkeeps, hlenAck, -⟩ := ackReceived_keeps (u.conns i) s.buf
  have hacked : (ackReceived (u.conns i) s.buf).2 = false := by
    rw [← Bool.not_eq_true]
    exact fun hacked => hnot (acknowledges_iff.mpr ⟨hignored, hacked⟩)
  obtain ⟨c', hkeeps', hlen', hmss', heq⟩ := established_eq fs u i (ackReceived (u.conns i) s.buf).1
    ⟨40 + llhLen, s.len, u16_lt _⟩ s.fin false s.malloc
  have hport' : c'.lport = 80 := hkeeps'.lport.trans (hkeeps.lport.trans hport)
  have hzero : c'.len = 0 := hlen'.trans (hlenAck.trans hlen)
  have hsmall : c'.mss < 2 ^ 16 := by
    rw [hmss']
    exact newMss_lt (hkeeps.initialmss ▸ hmss)
  generalize (skipUrgent s.buf ⟨40 + llhLen, s.len, u16_lt _⟩).2 = d' at hdata hget hname heq
  obtain ⟨happ, hflags, hslen⟩ := @appcall_get fs u i c' s.buf d' s.malloc name hport' hstate hget hname
  have hupload : Httpd.u32 ((Httpd.requestFile fs name).data.length : ℤ) =
      (Httpd.requestFile fs name).data.length := by
    rw [Httpd.u32]
    omega
  -- the first chunk is as much of the page as fits
  rw [length_chunk (by exact hupload), u16_of_lt (by omega)] at hslen
  change _ = min c'.mss (Httpd.u32 ((Httpd.requestFile fs name).data.length : ℤ)) at hslen
  rw [hupload] at hslen
  intro r
  have hr : r = _ := (found_established s hest).trans (if_neg hignored)
  rw [hacked, heq, if_pos (Or.inl hdata), decide_eq_true hdata] at hr
  generalize appcall fs u i c' s.buf d' { newdata := true } s.malloc = a at happ hflags hslen hr
  obtain ⟨hconn, hstack, -, hflight⟩ :=
    @appsend_open u i c' a (by rw [hflags]) (by rw [hflags])
  have hnew : newLen c' a = min c'.mss (Httpd.requestFile fs name).data.length := by
    rw [newLen, hslen]
    split
    · omega
    · rw [if_pos (Or.inr hzero)]
      omega
  rw [← hr] at hconn hstack hflight
  rw [happ] at hstack
  exact
    { established := by
        rw [hconn]
        exact hkeeps'.tcpState.trans (hkeeps.tcpState.trans hest)
      lport := by
        rw [hconn]
        exact hport'
      initialmss_lt := by
        rw [hconn, hkeeps'.initialmss, hkeeps.initialmss]
        exact hmss
      state := by
        rw [hstack]
        rfl
      dataptr := by
        rw [hstack]
        rfl
      upload := by
        rw [hstack]
        exact hupload
      upload_lt := hpage
      len_le := by
        rw [hconn]
        change newLen c' a ≤ _
        omega
      flight := by
        rw [hflight, hconn, happ]
        change _ = (Httpd.requestFile fs name).data.take (newLen c' a)
        by_cases hnone : newLen c' a = 0
        · rw [hnone, if_neg fun h => Nat.lt_irrefl 0 h.1]
          exact List.take_zero.symm
        · have hne : (Httpd.requestFile fs name).data ≠ [] := by
            rw [← List.length_pos_iff]
            omega
          exact if_pos ⟨by omega, hne⟩
      acked := rfl }

/-! ### Runs -/

/-- A segment during the transfer: an acknowledgement of the last chunk, one of another chunk,
or no acknowledgement. -/
theorem Running.deliver_segment (h : Running i file t) (s : Segment) :
    let r := Uip.deliver fs i t (.segment s)
    ((Closes r.2 → r.1.acked = file) ↔ ¬ Premature i t (.segment s)) ∧
      (¬ Premature i t (.segment s) → Sound i file r.1) := by
  intro r
  by_cases hack : Acknowledges (t.stack.conns i) s
  swap
  · have hpre : ¬ Premature i t (.segment s) := fun hpre => hack hpre.2.2.1
    obtain ⟨hcloses, hrun⟩ := @Running.deliver_other fs i file t h s hack
    exact ⟨iff_of_true (fun hc => absurd hc hcloses) hpre, fun _ => Or.inl hrun⟩
  by_cases hlast : t.stack.app.upload ≤ newMss (t.stack.conns i) s.buf
  swap
  · have hpre : ¬ Premature i t (.segment s) := fun hpre => hlast hpre.2.2.2.2
    obtain ⟨hcloses, hrun⟩ := @Running.deliver_next fs i file t h s hack (Nat.not_le.mp hlast)
    exact ⟨iff_of_true (fun hc => absurd hc hcloses) hpre, fun _ => Or.inl hrun⟩
  -- the connection is closed: all of the page has come iff all that was left was in flight
  obtain ⟨hcloses, hless, hall⟩ := @Running.deliver_last fs i file t h s hack hlast
  by_cases hlen : (t.stack.conns i).len < t.stack.app.upload
  · have hpre : Premature i t (.segment s) := ⟨h.established, h.state, hack, hlen, hlast⟩
    exact ⟨iff_of_false (fun heq => hless hlen (heq hcloses)) (not_not.mpr hpre),
      fun hnot => absurd hpre hnot⟩
  · have hpre : ¬ Premature i t (.segment s) := fun hpre => hlen hpre.2.2.2.1
    have hfin := hall (Nat.not_lt.mp hlen)
    exact ⟨iff_of_true (fun _ => hfin.acked) hpre, fun _ => Or.inr (Or.inl hfin)⟩

/-- Only a segment of an established connection is premature. -/
theorem not_premature (e : Incident) (h : (t.stack.conns i).tcpState ≠ .established) :
    ¬ Premature i t e := by
  cases e with
  | segment s => exact fun hpre => h hpre.1
  | timer b => exact not_false

/-- **One step.**  It closes the connection too early iff it is premature; if not, all stays
sound. -/
theorem Sound.deliver (h : Sound i file t) (e : Incident) :
    let r := Uip.deliver fs i t e
    ((Closes r.2 → r.1.acked = file) ↔ ¬ Premature i t e) ∧
      (¬ Premature i t e → Sound i file r.1) := by
  intro r
  rcases h with h | h | h
  · cases e with
    | segment s => exact h.deliver_segment s
    | timer b =>
      obtain ⟨hcloses, hrun⟩ := @Running.deliver_timer fs i file t h b
      exact ⟨iff_of_true (fun hc => absurd hc hcloses) not_false,
        fun _ => hrun.imp_right Or.inr⟩
  · have hpre : ¬ Premature i t e := by
      refine not_premature e ?_
      rcases h.closing with hs | hs
      · rw [hs]
        exact TcpState.noConfusion
      · rw [hs]
        exact TcpState.noConfusion
    obtain ⟨hacked, hfin⟩ := @Finished.deliver fs i file t h e
    exact ⟨iff_of_true (fun _ => hacked) hpre, fun _ => Or.inr hfin⟩
  · have hpre : ¬ Premature i t e := by
      refine not_premature e ?_
      rw [h]
      exact TcpState.noConfusion
    obtain ⟨hcloses, hclosed⟩ := @deliver_closed fs i t h e
    exact ⟨iff_of_true (fun hc => absurd hc hcloses) hpre, fun _ => Or.inr (Or.inr hclosed)⟩

/-- **Page delivery.**  In a run of segments and time-outs, with any windows, the server closes
the connection only after the whole page has been acknowledged, in order and once, iff no
acknowledgement in the run is premature. -/
theorem delivered_iff (h : Serving i file t) (es : List Incident) :
    Run.AllSteps (deliver fs i)
        (fun t e => Closes (deliver fs i t e).2 → (deliver fs i t e).1.acked = file) t es ↔
      Run.AllSteps (deliver fs i) (fun t e => ¬ Premature i t e) t es := by
  refine Run.allSteps_iff_of_invariant (Sound i file) ?_ ?_ (Or.inl h.running)
  · intro t e hsound hgood
    obtain ⟨hiff, hnext⟩ := @Sound.deliver fs i file t hsound e
    exact hnext (hiff.mp hgood)
  · intro t e hsound
    exact (@Sound.deliver fs i file t hsound e).1

/-! ### A page of three bytes -/

/-- A segment without data: an acknowledgement of everything before `ackno`, with window `wnd`. -/
def ackBuf (ackno wnd : ℕ) : Buf
  | 44 => UInt8.ofNat (ackno / 256)
  | 45 => UInt8.ofNat ackno
  | 46 => 0x50
  | 47 => tcpAck
  | 48 => UInt8.ofNat (wnd / 256)
  | 49 => UInt8.ofNat wnd
  | _ => 0

theorem ackBuf_rst (ackno wnd : ℕ) : (ackBuf ackno wnd).has tcpRst = false := by
  change decide (tcpAck &&& tcpRst ≠ 0) = false
  decide

theorem ackBuf_fin (ackno wnd : ℕ) : (ackBuf ackno wnd).has tcpFin = false := by
  change decide (tcpAck &&& tcpFin ≠ 0) = false
  decide

/-- The acknowledgement as it comes in. -/
def ackSegment (ackno wnd : ℕ) : Incident :=
  .segment ⟨ackBuf ackno wnd, 40, true, ackBuf_rst ackno wnd, ackBuf_fin ackno wnd⟩

/-- A page of three bytes was asked for with a window of two: two bytes are in flight. -/
def threeBytes : Transfer where
  stack :=
    { start 0 (fun _ => 0) with
      conns := fun _ =>
        { lport := 80, tcpState := .established, sndNxt := 100, len := 2, mss := 2,
          initialmss := 1446 }
      app :=
        { Httpd.initial (fun _ => 0) with
          state := .fileRequest, dataptr := [1, 2, 3], upload := 3 } }
  flight := [1, 2]
  acked := []

theorem serving_threeBytes : Serving 0 [1, 2, 3] threeBytes where
  established := rfl
  lport := rfl
  initialmss_lt := by decide
  state := rfl
  dataptr := rfl
  upload := rfl
  upload_lt := by decide
  len_le := by decide
  flight := rfl
  acked := rfl

/-- With the window at two all along, the page arrives. -/
theorem delivered_iff_threeBytes :
    Run.AllSteps (deliver default 0)
      (fun t e => Closes (deliver default 0 t e).2 → (deliver default 0 t e).1.acked = [1, 2, 3])
      threeBytes [.timer (fun _ => 0), ackSegment 102 2, ackSegment 103 2] :=
  (delivered_iff serving_threeBytes _).mpr (by decide)

/-- **A page is cut off.**  Two of three bytes are in flight when the window opens: their
acknowledgement closes the connection, and the third byte is never sent. -/
theorem page_cut_off :
    ¬ ∀ (fs : Fs) (i : Fin 2) (file : List UInt8) (t : Transfer) (es : List Incident),
      Serving i file t → Run.AllSteps (deliver fs i)
        (fun t e => Closes (deliver fs i t e).2 → (deliver fs i t e).1.acked = file) t es := by
  intro h
  have hstep := (h default 0 [1, 2, 3] threeBytes [ackSegment 102 1000] serving_threeBytes).1
  have hcloses : Closes (deliver default 0 threeBytes (ackSegment 102 1000)).2 := by decide
  exact absurd (hstep hcloses) (by decide)

end Uip
