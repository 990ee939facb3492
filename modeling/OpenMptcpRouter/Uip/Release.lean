/-
How the stack lets go of a connection (`UIP_TIMER` in `httpd/uip.c`).

There are two connections, and a client that goes away without a word leaves one behind.  In
`HttpdHandler` each connection gets a turn: what is unanswered is sent again, up to eight times
and after longer and longer pauses; an idle connection asks the application, which gives up
after a hundred questions from both connections together; and a connection that has been closed
waits for its time to pass.

* `Conn.Regular` — a `SYN` or `FIN` that waits for its acknowledgement counts as data, so that
  the timer of its connection runs;
* `Conn.patience` — what goes down with every turn of a connection that is open;
* `closed_run_iff` — **without frames, every connection is closed** after 1305 rounds.
-/
import OpenMptcpRouter.Uip.Answers

namespace Uip

open Httpd (Fs)

/-! ### What holds of a connection at any time -/

/-- A `SYN` or a `FIN` has been sent and is not acknowledged yet. -/
def TcpState.Awaits (state : TcpState) : Prop :=
  state = .synRcvd ∨ state = .finWait1 ∨ state = .closing ∨ state = .lastAck

instance : DecidablePred TcpState.Awaits := fun state => by
  unfold TcpState.Awaits
  infer_instance

/-- The timer of a connection that waits runs, and has not gone off too often. -/
structure Conn.Regular (c : Conn) : Prop where
  awaits : c.tcpState.Awaits → c.len ≠ 0
  nrtx : c.nrtx.toNat ≤ 8

section Regular

variable {fs : Fs} {u : Stack} {i : Fin 2} {c c' : Conn} {b : Buf} {d : AppData}
  {malloc acked : Bool}

theorem toNat_zero_le : (0 : UInt8).toNat ≤ 8 := by decide

/-- A connection that waits for nothing. -/
theorem Conn.Regular.of_state (state : TcpState) (hstate : c.tcpState = state)
    (h : ¬ state.Awaits) (hnrtx : c.nrtx.toNat ≤ 8) : c.Regular := by
  subst hstate
  exact ⟨fun hawaits => absurd hawaits h, hnrtx⟩

/-- State, outstanding data and retransmissions are all that matters. -/
theorem Conn.Regular.congr (hc : c.Regular) (hstate : c'.tcpState = c.tcpState)
    (hlen : c'.len = c.len) (hnrtx : c'.nrtx = c.nrtx) : c'.Regular := by
  refine ⟨fun h => ?_, ?_⟩
  · rw [hstate] at h
    rw [hlen]
    exact hc.awaits h
  · rw [hnrtx]
    exact hc.nrtx

theorem regular_drop (hc : c.Regular) (acc : List (ℕ × ℕ)) :
    ((drop u i c acc).stack.conns i).Regular := by
  rw [show (drop u i c acc).stack.conns i = c from Function.update_self ..]
  exact hc

theorem regular_sendNodata (hc : c.Regular) (fl : UInt8) (acc : List (ℕ × ℕ)) :
    ((sendNodata u i c fl acc).stack.conns i).Regular := by
  rw [show (sendNodata u i c fl acc).stack.conns i = c from Function.update_self ..]
  exact hc

/-- An established connection sends, is closed with a `FIN`, or reset. -/
theorem regular_appsend (hest : c.tcpState = .established) (hnrtx : c.nrtx.toNat ≤ 8)
    (r : Called) : ((appsend u i c r).stack.conns i).Regular := by
  by_cases habort : r.flags.abort = true
  · rw [appsend, if_pos habort]
    refine regular_sendNodata ?_ _ _
    exact .of_state .closed rfl (by decide) hnrtx
  by_cases hclose : r.flags.close = true
  · rw [appsend, if_neg habort, if_pos hclose]
    refine regular_sendNodata ?_ _ _
    exact ⟨fun _ => Nat.one_ne_zero, toNat_zero_le⟩
  · rw [appsend_eq (by simpa using habort) (by simpa using hclose), apprexmit_conn]
    exact .of_state .established hest (by decide) toNat_zero_le

theorem ackReceived_nrtx (c : Conn) (b : Buf) : (ackReceived c b).1.nrtx = c.nrtx := by
  rw [ackReceived]
  split
  · rw [estimateRtt]
    split
    · rfl
    · rfl
  · rfl

theorem Conn.Regular.of_ack (hc : c.Regular) (b : Buf) : (ackReceived c b).1.Regular := by
  obtain ⟨hkeeps, hlen, -⟩ := ackReceived_keeps c b
  exact hc.congr hkeeps.tcpState hlen (ackReceived_nrtx c b)

theorem regular_established (hc : c.Regular) (hest : c.tcpState = .established) :
    ((established fs u i c b d acked malloc).stack.conns i).Regular := by
  rw [established]
  by_cases hfin : b.has tcpFin = true
  · rw [if_pos hfin]
    split
    · exact regular_drop hc _
    · refine regular_sendNodata ?_ _ _
      exact ⟨fun _ => Nat.one_ne_zero, toNat_zero_le⟩
  rw [if_neg hfin]
  dsimp only
  split
  · exact regular_appsend (by exact hest) (by exact hc.nrtx) _
  · refine regular_drop ?_ _
    exact hc.congr rfl rfl rfl

/-- **A segment of a connection.** -/
theorem regular_found (fs : Fs) (hc : (u.conns i).Regular) (b : Buf) (ipLen : ℕ) (malloc : Bool) :
    ((found fs u i b ipLen malloc).stack.conns i).Regular := by
  have hack := hc.of_ack b
  rw [found]
  dsimp only
  by_cases hrst : b.has tcpRst = true
  · rw [if_pos hrst]
    refine regular_drop ?_ _
    exact .of_state .closed rfl (by decide) hc.nrtx
  rw [if_neg hrst]
  by_cases hseq : 0 < u16 (ipLen - b.hdrLen - 20) ∧ b.seqno ≠ (u.conns i).rcvNxt
  · rw [if_pos hseq]
    exact regular_sendNodata hc _ _
  rw [if_neg hseq]
  generalize ackReceived (u.conns i) b = ca at hack ⊢
  obtain ⟨c, acked⟩ := ca
  dsimp only at hack ⊢
  rcases hs : c.tcpState with _ | _ | _ | _ | _ | _ | _ | _
  all_goals dsimp only
  case closed => exact regular_drop hack _
  case synRcvd =>
    rw [synRcvd]
    split
    · exact regular_appsend (by exact rfl) (by exact hack.nrtx) _
    · exact regular_drop hack _
  case established => exact regular_established hack hs
  case finWait1 =>
    have hlen : c.len ≠ 0 := hack.awaits (by rw [hs]; decide)
    rw [finWait1]
    by_cases hfin : b.has tcpFin = true
    · rw [if_pos hfin]
      cases acked with
      | true =>
        refine regular_sendNodata ?_ _ _
        exact .of_state .timeWait rfl (by decide) hack.nrtx
      | false =>
        refine regular_sendNodata ?_ _ _
        exact ⟨fun _ => hlen, hack.nrtx⟩
    rw [if_neg hfin]
    split
    · refine regular_drop ?_ _
      exact .of_state .finWait2 rfl (by decide) hack.nrtx
    split
    · refine regular_sendNodata ?_ _ _
      exact hack.congr rfl rfl rfl
    · refine regular_drop ?_ _
      exact hack.congr rfl rfl rfl
  case finWait2 =>
    rw [finWait2]
    by_cases hfin : b.has tcpFin = true
    · rw [if_pos hfin]
      refine regular_sendNodata ?_ _ _
      exact .of_state .timeWait rfl (by decide) hack.nrtx
    rw [if_neg hfin]
    split
    · refine regular_sendNodata ?_ _ _
      exact hack.congr rfl rfl rfl
    · refine regular_drop ?_ _
      exact hack.congr rfl rfl rfl
  case closing =>
    cases acked with
    | true =>
      refine regular_drop ?_ _
      exact .of_state .timeWait rfl (by decide) hack.nrtx
    | false => exact regular_drop hack _
  case timeWait => exact regular_sendNodata hack _ _
  case lastAck =>
    split
    · refine regular_drop ?_ _
      exact .of_state .closed rfl (by decide) hack.nrtx
    · exact regular_drop hack _

theorem regular_foundListen (hu : ∀ j, (u.conns j).Regular) (b : Buf) (j : Fin 2) :
    ((foundListen u b).stack.conns j).Regular := by
  rw [foundListen]
  rcases freeConn u.conns with _ | i
  · exact hu j
  dsimp only
  -- the new connection waits for the acknowledgement of its `SYN`
  have hnew : ∀ {v : Stack} {c : Conn}, v.conns = Function.update u.conns i c → c.len = 1 →
      c.nrtx = 0 → (v.conns j).Regular := by
    intro v c hconns hlen hnrtx
    rw [hconns]
    by_cases hj : j = i
    · rw [hj, Function.update_self]
      refine ⟨fun _ => ?_, ?_⟩
      · rw [hlen]
        exact Nat.one_ne_zero
      · rw [hnrtx]
        decide
    · rw [Function.update_of_ne hj]
      exact hu j
  split
  · exact hnew rfl rfl rfl
  · exact hnew rfl rfl rfl
  · exact hnew rfl rfl rfl

end Regular

/-! ### Patience -/

/-- The turns with `left` more retransmissions to come. -/
def pauses : (left : ℕ) → ℕ
  | 0 => 0
  | left + 1 => 3 * 2 ^ min 4 (7 - left) + 1 + pauses left

/-- The connection behind a retransmission: its timer is set for a longer pause. -/
def Conn.backoff (c : Conn) : Conn :=
  { c with
    timer := rtoInit <<< (if 4 < c.nrtx then 4 else c.nrtx)
    nrtx := c.nrtx + 1 }

/-- The turns a connection has before it is closed, and the hundred polls that its end gives
back to the other one. -/
def Conn.patience (c : Conn) : ℕ :=
  if c.tcpState = .closed then 0
  else if c.tcpState = .timeWait ∨ c.tcpState = .finWait2 then 101 + ((119 - c.timer).toNat + 1)
  else if c.len ≠ 0 then 101 + (c.timer.toNat + 1 + pauses (8 - c.nrtx.toNat))
  else 101

/-- A turn of connection `i` has used up something. -/
structure Eases (u : Stack) (i : Fin 2) (r : Result) : Prop where
  regular : (r.stack.conns i).Regular
  lt : (r.stack.conns i).patience + (100 - r.stack.app.count) <
    (u.conns i).patience + (100 - u.app.count)

section Turn

variable {fs : Fs} {u : Stack} {i : Fin 2} {c : Conn} {b : Buf} {r : Result}

theorem pauses_eq {n : ℕ} (h : n < 8) :
    pauses (8 - n) = 3 * 2 ^ min 4 n + 1 + pauses (8 - (n + 1)) := by
  have hleft : 8 - n = 8 - (n + 1) + 1 := by omega
  rw [hleft, pauses, show 7 - (8 - (n + 1)) = n by omega]

theorem pauses_le : ∀ n ≤ 8, pauses n ≤ 245 := by decide

theorem patience_closed (h : c.tcpState = .closed) : c.patience = 0 := if_pos h

theorem patience_waiting (h : c.tcpState = .timeWait ∨ c.tcpState = .finWait2) :
    c.patience = 101 + ((119 - c.timer).toNat + 1) := by
  have hopen : c.tcpState ≠ .closed := by
    intro hclosed
    rw [hclosed] at h
    rcases h with h | h <;> cases h
  rw [Conn.patience, if_neg hopen, if_pos h]

theorem patience_unanswered (hopen : c.tcpState ≠ .closed)
    (hwait : ¬ (c.tcpState = .timeWait ∨ c.tcpState = .finWait2)) (hlen : c.len ≠ 0) :
    c.patience = 101 + (c.timer.toNat + 1 + pauses (8 - c.nrtx.toNat)) := by
  rw [Conn.patience, if_neg hopen, if_neg hwait, if_pos hlen]

theorem patience_idle (hopen : c.tcpState ≠ .closed)
    (hwait : ¬ (c.tcpState = .timeWait ∨ c.tcpState = .finWait2)) (hlen : c.len = 0) :
    c.patience = 101 := by
  rw [Conn.patience, if_neg hopen, if_neg hwait, if_neg (not_not.mpr hlen)]

theorem le_patience (hopen : c.tcpState ≠ .closed) : 101 ≤ c.patience := by
  rw [Conn.patience, if_neg hopen]
  split
  · exact Nat.le_add_right ..
  split
  · exact Nat.le_add_right ..
  · exact Nat.le_refl _

theorem patience_le (c : Conn) : c.patience ≤ 602 := by
  have htimer := c.timer.toNat_lt
  have htime := (119 - c.timer).toNat_lt
  have hpauses := pauses_le (8 - c.nrtx.toNat) (Nat.sub_le ..)
  rw [Conn.patience]
  split
  · exact Nat.zero_le _
  split
  · omega
  split
  · omega
  · omega

/-- The pause before the next retransmission. -/
theorem backoff_toNat {n : UInt8} (h : n.toNat < 8) :
    (rtoInit <<< (if 4 < n then 4 else n)).toNat = 3 * 2 ^ min 4 n.toNat := by
  have hall : ∀ k < 8, (rtoInit <<< (if 4 < UInt8.ofNat k then 4 else UInt8.ofNat k)).toNat =
      3 * 2 ^ min 4 k := by decide
  have hn := hall n.toNat h
  rwa [UInt8.ofNat_toNat] at hn

/-- The time of a closed connection passes: its 8-bit timer is on its way to 120, and may have
to go round once. -/
theorem patience_tick (hwait : c.tcpState = .timeWait ∨ c.tcpState = .finWait2)
    (htimer : c.timer + 1 ≠ 120) :
    ({ c with timer := c.timer + 1 } : Conn).patience < c.patience := by
  have hafter : ({ c with timer := c.timer + 1 } : Conn).patience =
      101 + ((119 - (c.timer + 1)).toNat + 1) := patience_waiting hwait
  have hne : c.timer.toNat ≠ 119 := by
    intro h
    have h119 : c.timer = 119 := UInt8.toNat_inj.mp h
    rw [h119] at htimer
    exact htimer (by decide)
  have hlt := c.timer.toNat_lt
  rw [hafter, patience_waiting hwait, UInt8.toNat_sub, UInt8.toNat_sub, UInt8.toNat_add]
  show 101 + ((2 ^ 8 - (c.timer.toNat + 1) % 2 ^ 8 + 119) % 2 ^ 8 + 1) <
    101 + ((2 ^ 8 - c.timer.toNat + 119) % 2 ^ 8 + 1)
  omega

/-- The timer of an unanswered connection runs down. -/
theorem patience_countdown (hopen : c.tcpState ≠ .closed)
    (hwait : ¬ (c.tcpState = .timeWait ∨ c.tcpState = .finWait2)) (hlen : c.len ≠ 0)
    (hfired : c.timer ≠ 0) : ({ c with timer := c.timer - 1 } : Conn).patience < c.patience := by
  have hafter : ({ c with timer := c.timer - 1 } : Conn).patience =
      101 + ((c.timer - 1).toNat + 1 + pauses (8 - c.nrtx.toNat)) :=
    patience_unanswered hopen hwait hlen
  have hne : c.timer.toNat ≠ 0 := fun h => hfired (UInt8.toNat_inj.mp h)
  have hlt := c.timer.toNat_lt
  have hsub : (c.timer - 1).toNat = (2 ^ 8 - 1 + c.timer.toNat) % 2 ^ 8 := UInt8.toNat_sub ..
  rw [hafter, patience_unanswered hopen hwait hlen, hsub]
  omega

theorem nrtx_succ (h : c.nrtx.toNat < 8) : (c.nrtx + 1).toNat = c.nrtx.toNat + 1 := by
  have hadd : (c.nrtx + 1).toNat = (c.nrtx.toNat + 1) % 2 ^ 8 := UInt8.toNat_add ..
  omega

/-- One retransmission more, and the pause behind it. -/
theorem patience_backoff (hopen : c.tcpState ≠ .closed)
    (hwait : ¬ (c.tcpState = .timeWait ∨ c.tcpState = .finWait2)) (hlen : c.len ≠ 0)
    (hfired : c.timer = 0) (hnrtx : c.nrtx.toNat < 8) : c.backoff.patience < c.patience := by
  have hafter : c.backoff.patience =
      101 + (c.backoff.timer.toNat + 1 + pauses (8 - c.backoff.nrtx.toNat)) :=
    patience_unanswered hopen hwait hlen
  have htimer : c.backoff.timer.toNat = 3 * 2 ^ min 4 c.nrtx.toNat := backoff_toNat hnrtx
  have hnext : c.backoff.nrtx.toNat = c.nrtx.toNat + 1 := nrtx_succ hnrtx
  have hzero : c.timer.toNat = 0 := by
    rw [hfired]
    decide
  rw [hafter, htimer, hnext, patience_unanswered hopen hwait hlen, pauses_eq hnrtx, hzero]
  omega

theorem Conn.Regular.backoff (hc : c.Regular) (hnrtx : c.nrtx.toNat < 8) : c.backoff.Regular := by
  refine ⟨fun h => hc.awaits h, ?_⟩
  show (c.nrtx + 1).toNat ≤ 8
  rw [nrtx_succ hnrtx]
  exact hnrtx

/-- The connection has been given up: what it gives back is less than what it had. -/
theorem eases_closed (hopen : (u.conns i).tcpState ≠ .closed) (hconn : r.stack.conns i = c)
    (hclosed : c.tcpState = .closed) (hnrtx : c.nrtx.toNat ≤ 8) : Eases u i r := by
  refine ⟨?_, ?_⟩
  · rw [hconn]
    exact .of_state .closed hclosed (by decide) hnrtx
  · have hle := le_patience hopen
    rw [hconn, patience_closed hclosed]
    omega

/-- The application has not been asked. -/
theorem eases_same (hconn : r.stack.conns i = c) (hcount : r.stack.app.count = u.app.count)
    (hregular : c.Regular) (hlt : c.patience < (u.conns i).patience) : Eases u i r := by
  refine ⟨?_, ?_⟩
  · rw [hconn]
    exact hregular
  · rw [hconn, hcount]
    omega

/-- The state in which only the application is waited for. -/
theorem established_of {state : TcpState} (hopen : state ≠ .closed)
    (hwait : ¬ (state = .timeWait ∨ state = .finWait2)) (hawaits : ¬ state.Awaits) :
    state = .established := by
  rw [not_or] at hwait
  cases state with
  | established => rfl
  | closed => exact absurd rfl hopen
  | timeWait => exact absurd rfl hwait.1
  | finWait2 => exact absurd rfl hwait.2
  | synRcvd => exact absurd (by decide) hawaits
  | finWait1 => exact absurd (by decide) hawaits
  | closing => exact absurd (by decide) hawaits
  | lastAck => exact absurd (by decide) hawaits

/-- The answer of the application to a poll: enough, or one poll more. -/
theorem httpdAppcall_poll (fs : Fs) (s : Httpd.State) (b : Buf) (d : AppData) (i : Fin 2)
    (c : Conn) (malloc : Bool) :
    let r := Httpd.httpdAppcall fs s (appEvent b d i c { poll := true } malloc)
    r.2.reply = .abort ∨
      s.count < 100 ∧ r.1.count = s.count + 1 ∧ r.2.reply = .none ∧ r.2.send = none := by
  intro r
  by_cases hport : c.lport = 80
  · have hr : r = if 100 ≤ s.count then Httpd.resetAbort s
        else ({ s with count := s.count + 1 }, {}) := if_pos hport
    by_cases hcount : 100 ≤ s.count
    · rw [hr, if_pos hcount]
      exact Or.inl rfl
    · rw [hr, if_neg hcount]
      exact Or.inr ⟨Nat.lt_of_not_le hcount, rfl, rfl, rfl⟩
  · have hr : r = (s, { reply := .abort }) := if_neg hport
    rw [hr]
    exact Or.inl rfl

/-- A retransmission does not count as a poll. -/
theorem httpdAppcall_rexmit (fs : Fs) (s : Httpd.State) (b : Buf) (d : AppData) (i : Fin 2)
    (c : Conn) (malloc : Bool) :
    (Httpd.httpdAppcall fs s (appEvent b d i c { rexmit := true } malloc)).1.count = s.count := by
  by_cases hport : c.lport = 80
  · have hr : Httpd.httpdAppcall fs s (appEvent b d i c { rexmit := true } malloc) =
        Httpd.handleRexmit s (appEvent b d i c { rexmit := true } malloc) := if_pos hport
    rw [hr, Httpd.handleRexmit]
    split <;> rfl
  · have hr : Httpd.httpdAppcall fs s (appEvent b d i c { rexmit := true } malloc) =
        (s, { reply := .abort }) := if_neg hport
    rw [hr]

/-- An idle connection asks the application. -/
theorem eases_poll (fs : Fs) (hest : (u.conns i).tcpState = .established)
    (hregular : (u.conns i).Regular) (hlen : (u.conns i).len = 0) (b : Buf) (iss : ℕ) :
    Eases u i (appsend { u with iss := iss } i (u.conns i)
      (appcall fs { u with iss := iss } i (u.conns i) b .nothing { poll := true } true)) := by
  have hopen : (u.conns i).tcpState ≠ .closed := by
    rw [hest]
    decide
  have hwait : ¬ ((u.conns i).tcpState = .timeWait ∨ (u.conns i).tcpState = .finWait2) := by
    rw [hest]
    decide
  have hpoll := httpdAppcall_poll fs u.app b .nothing i (u.conns i) true
  generalize hout : Httpd.httpdAppcall fs u.app
    (appEvent b .nothing i (u.conns i) { poll := true } true) = out at hpoll
  obtain ⟨app, out⟩ := out
  have hcalled := appcall_eq (u := { u with iss := iss }) hout
  generalize appcall fs { u with iss := iss } i (u.conns i) b .nothing { poll := true } true = r
    at hcalled ⊢
  dsimp only at hpoll
  rcases hpoll with habort | ⟨hcount, happ, hreply, hsend⟩
  · -- enough: the count may start again from 0, but the connection is gone
    rw [habort] at hcalled
    have hflag : r.flags.abort = true := by
      rw [hcalled]
      rfl
    rw [appsend_abort hflag]
    exact eases_closed hopen (Function.update_self ..) rfl hregular.nrtx
  · -- nothing to send: the connection stays idle
    rw [hreply, hsend] at hcalled
    have hflags : r.flags = { poll := true } := by
      rw [hcalled]
      rfl
    have hnew : newLen (u.conns i) r = 0 := if_pos (by rw [hcalled]; rfl)
    have hafter : ({ u.conns i with len := 0, nrtx := 0 } : Conn).patience = 101 :=
      patience_idle hopen hwait rfl
    rw [appsend_eq (by rw [hflags]) (by rw [hflags]), hnew]
    refine ⟨?_, ?_⟩
    · rw [apprexmit_conn]
      exact .of_state .established hest (by decide) toNat_zero_le
    · rw [apprexmit_conn, apprexmit_app, hafter, patience_idle hopen hwait hlen]
      show 101 + (100 - r.app.count) < _
      rw [show r.app = app from by rw [hcalled], happ]
      omega

/-- **A connection's turn.** -/
theorem eases_uipPeriodic (fs : Fs) (hregular : (u.conns i).Regular)
    (hopen : (u.conns i).tcpState ≠ .closed) (b : Buf) : Eases u i (uipPeriodic fs u i b) := by
  rw [uipPeriodic]
  dsimp only
  by_cases hwait : (u.conns i).tcpState = .timeWait ∨ (u.conns i).tcpState = .finWait2
  · -- the timer counts up to `UIP_TIME_WAIT_TIMEOUT`
    rw [if_pos hwait]
    by_cases htimer : (u.conns i).timer + 1 = 120
    · rw [if_pos htimer]
      exact eases_closed hopen (Function.update_self ..) rfl hregular.nrtx
    · rw [if_neg htimer]
      refine eases_same (Function.update_self ..) rfl (hregular.congr rfl rfl rfl) ?_
      exact patience_tick hwait htimer
  rw [if_neg hwait, if_neg hopen]
  by_cases hlen : (u.conns i).len = 0
  · rw [if_neg (not_not.mpr hlen)]
    -- a connection without outstanding data waits for nothing
    have hest : (u.conns i).tcpState = .established := by
      have hawaits : ¬ (u.conns i).tcpState.Awaits := fun h => hregular.awaits h hlen
      exact established_of hopen hwait hawaits
    rw [if_pos hest]
    exact eases_poll fs hest hregular hlen b _
  rw [if_pos hlen]
  by_cases hfired : (u.conns i).timer = 0
  swap
  · -- the timer counts down to the next retransmission
    rw [if_neg (by simpa using hfired)]
    refine eases_same (Function.update_self ..) rfl (hregular.congr rfl rfl rfl) ?_
    exact patience_countdown hopen hwait hlen hfired
  rw [if_pos (by simpa using hfired)]
  by_cases hgiven :
      (u.conns i).nrtx = 8 ∨ (u.conns i).tcpState = .synRcvd ∧ (u.conns i).nrtx = 3
  · -- too many retransmissions
    rw [if_pos hgiven]
    exact eases_closed hopen (Function.update_self ..) rfl hregular.nrtx
  rw [if_neg hgiven]
  -- once more, with a longer pause
  have hnrtx : (u.conns i).nrtx.toNat < 8 := by
    have hne : (u.conns i).nrtx.toNat ≠ 8 := fun h =>
      hgiven (Or.inl (show (u.conns i).nrtx = 8 from UInt8.toNat_inj.mp h))
    have hle := hregular.nrtx
    omega
  have hlt := patience_backoff hopen hwait hlen hfired hnrtx
  have hregular' := hregular.backoff hnrtx
  -- the `SYN`, the data or the `FIN`
  by_cases hsyn : (u.conns i).tcpState = .synRcvd
  · rw [if_pos hsyn]
    exact eases_same (Function.update_self ..) rfl hregular' hlt
  rw [if_neg hsyn]
  by_cases hest : (u.conns i).tcpState = .established
  · rw [if_pos hest]
    refine eases_same (apprexmit_conn _ _) ?_ hregular' hlt
    rw [apprexmit_app]
    exact httpdAppcall_rexmit fs u.app b .nothing i _ true
  · rw [if_neg hest]
    exact eases_same (Function.update_self ..) rfl hregular' hlt

end Turn

/-! ### The whole stack -/

/-- Every connection is regular, and a stack that hangs has done so over a `SYN`. -/
structure Stack.Regular (u : Stack) : Prop where
  conns : ∀ i, (u.conns i).Regular
  hung : u.hung = true → ∃ i, (u.conns i).tcpState = .synRcvd

def Stack.AllClosed (u : Stack) : Prop := ∀ i, (u.conns i).tcpState = .closed

def Stack.patience (u : Stack) : ℕ :=
  ((List.finRange 2).map fun i => (u.conns i).patience).sum + (100 - u.app.count)

section Stacks

variable {fs : Fs} {u : Stack} {i : Fin 2} {b : Buf}

theorem Stack.patience_eq (u : Stack) :
    u.patience = (u.conns 0).patience + (u.conns 1).patience + (100 - u.app.count) := rfl

theorem Stack.patience_le (u : Stack) : u.patience ≤ 1304 := by
  have hzero := Uip.patience_le (u.conns 0)
  have hone := Uip.patience_le (u.conns 1)
  rw [u.patience_eq]
  omega

/-- The timer leaves a connection regular, open or not. -/
theorem regular_uipPeriodic (fs : Fs) (hu : ∀ j, (u.conns j).Regular) (i : Fin 2) (b : Buf)
    (j : Fin 2) : ((uipPeriodic fs u i b).stack.conns j).Regular := by
  by_cases hj : j = i
  · rw [hj]
    by_cases hclosed : (u.conns i).tcpState = .closed
    · rw [uipPeriodic_closed hclosed]
      exact hu i
    · exact (eases_uipPeriodic fs (hu i) hclosed b).regular
  · rw [(uipPeriodic_turn fs u i b).others j hj]
    exact hu j

theorem allClosed_uipPeriodic (hclosed : u.AllClosed) (i : Fin 2) (b : Buf) :
    (uipPeriodic fs u i b).stack.AllClosed := by
  rw [uipPeriodic_closed (hclosed i)]
  exact hclosed

/-- **A turn** takes from the patience of the stack, unless the connection is closed. -/
theorem patience_uipPeriodic (fs : Fs) (hu : ∀ j, (u.conns j).Regular) (i : Fin 2) (b : Buf) :
    (u.conns i).tcpState = .closed ∧ (uipPeriodic fs u i b).stack.conns = u.conns ∧
        (uipPeriodic fs u i b).stack.patience = u.patience ∨
      (uipPeriodic fs u i b).stack.patience < u.patience := by
  by_cases hclosed : (u.conns i).tcpState = .closed
  · rw [uipPeriodic_closed hclosed]
    exact Or.inl ⟨hclosed, rfl, rfl⟩
  right
  have hlt := (eases_uipPeriodic fs (hu i) hclosed b).lt
  have hothers := (uipPeriodic_turn fs u i b).others
  rw [Stack.patience_eq, Stack.patience_eq]
  rcases (by omega : i = 0 ∨ i = 1) with hi | hi
  · have hother := hothers 1 (by rw [hi]; decide)
    rw [hi] at hlt hother ⊢
    rw [hother]
    omega
  · have hother := hothers 0 (by rw [hi]; decide)
    rw [hi] at hlt hother ⊢
    rw [hother]
    omega

/-- **One step of the stack** keeps it regular. -/
theorem regular_stackStep (fs : Fs) (hu : u.Regular) (input : Input) :
    (stackStep fs u input).1.Regular := by
  by_cases hhung : u.hung = true
  · rw [show stackStep fs u input = (u, []) from if_pos hhung]
    exact hu
  have hcase := stepCase fs u input
  generalize (stackStep fs u input).1 = v, input.call u = call at hcase ⊢
  cases hcase with
  | idle => exact hu
  | segment x i =>
    obtain ⟨skipped, -, hturn⟩ := found_turn fs u i x.buf x.buf.ipLen x.malloc
    refine ⟨fun j => ?_, fun h => absurd (hturn.hung.symm.trans h) hhung⟩
    by_cases hj : j = i
    · rw [hj]
      exact regular_found fs (hu.conns i) _ _ _
    · rw [hturn.others j hj]
      exact hu.conns j
  | listen x =>
    refine ⟨regular_foundListen hu.conns x.buf, fun h => ?_⟩
    rcases foundListen_stack u x.buf with ⟨-, hstack⟩ | ⟨i, c, -, hconns, -, -, hstate, -⟩
    · rw [hstack] at h
      exact absurd h hhung
    · refine ⟨i, ?_⟩
      rw [hconns, Function.update_self]
      exact hstate
  | timer i b =>
    have hturn := uipPeriodic_turn fs u i b
    exact ⟨regular_uipPeriodic fs hu.conns i b, fun h => absurd (hturn.hung.symm.trans h) hhung⟩

theorem regular_start (hostaddr : ℕ) (ram : Httpd.Ram) : (start hostaddr ram).Regular :=
  ⟨fun _ => .of_state .closed rfl (by decide) toNat_zero_le, fun h => by cases h⟩

end Stacks

/-! ### Rounds of `HttpdHandler` -/

section Rounds

variable {fs : Fs} {h : Host}

theorem regular_hostStep (hregular : h.stack.Regular) (input : HostInput) :
    (h.step fs input).1.stack.Regular := by
  obtain ⟨inputs, hstack⟩ := hostStep_stack fs h input
  rw [hstack]
  exact Run.exec_invariant Stack.Regular (P := fun _ _ => True)
    (fun u input hu _ => regular_stackStep fs hu input) hregular
    (Run.allSteps_of_forall fun _ _ => trivial)

/-- A host that does not hang, over regular connections. -/
def Host.Runs (h : Host) : Prop := h.stack.hung = false ∧ h.stack.Regular

/-- A round leaves closed connections closed. -/
theorem round_closed (hruns : h.Runs) (hclosed : h.stack.AllClosed) (b b' : Buf) :
    (h.step fs (.handler b b')).1.stack.AllClosed := by
  rw [step_handler hruns.1]
  exact allClosed_uipPeriodic (allClosed_uipPeriodic hclosed 0 b) 1 b'

theorem round_runs (hruns : h.Runs) (b b' : Buf) : (h.step fs (.handler b b')).1.Runs := by
  refine ⟨?_, regular_hostStep hruns.2 _⟩
  rw [step_handler hruns.1, (uipPeriodic_turn fs _ 1 b').hung, (uipPeriodic_turn fs _ 0 b).hung]
  exact hruns.1

/-- **A round** closes the connections or takes from the patience of the stack. -/
theorem round_eases (hruns : h.Runs) (b b' : Buf) :
    (h.step fs (.handler b b')).1.stack.AllClosed ∨
      (h.step fs (.handler b b')).1.stack.patience < h.stack.patience := by
  have hfirst := patience_uipPeriodic fs hruns.2.conns 0 b
  have hregular := regular_uipPeriodic fs hruns.2.conns 0 b
  rw [step_handler hruns.1]
  generalize (uipPeriodic fs h.stack 0 b).stack = u at hfirst hregular ⊢
  -- a closed connection uses nothing up, so that one that is open is looked for
  rcases patience_uipPeriodic fs hregular 1 b' with ⟨hone, hconns, hsame⟩ | hlt
  · rw [hsame]
    rcases hfirst with ⟨hzero, hconns', -⟩ | hlt
    · left
      intro i
      rw [hconns]
      rcases (by omega : i = 0 ∨ i = 1) with hi | hi
      · rw [hi, hconns']
        exact hzero
      · rw [hi]
        exact hone
    · exact Or.inr hlt
  · right
    rcases hfirst with ⟨-, -, hsame⟩ | hlt'
    · rwa [hsame] at hlt
    · exact Nat.lt_trans hlt hlt'

/-- A host that hangs stays as it is. -/
theorem step_hung (hhung : h.stack.hung = true) (input : HostInput) :
    (h.step fs input).1 = h := by
  rw [show h.step fs input = (h, none, []) from if_pos hhung]

end Rounds

/-- **Without frames, every connection is let go.**  After any run, 1305 rounds of the timers
close both connections, unless the scan of the options of a `SYN` has not come to an end. -/
theorem closed_run_iff (fs : Fs) (hostaddr : ℕ) (ram : Httpd.Ram) (inputs : List HostInput)
    (rounds : List (Buf × Buf)) (hrounds : 1304 < rounds.length) :
    (Run.exec (Host.step fs) (Host.start hostaddr ram)
        (inputs ++ rounds.map fun r => .handler r.1 r.2)).stack.AllClosed ↔
      (Run.exec (Host.step fs) (Host.start hostaddr ram) inputs).stack.hung = false := by
  have hregular : (Run.exec (Host.step fs) (Host.start hostaddr ram) inputs).stack.Regular :=
    Run.exec_invariant (fun h : Host => h.stack.Regular) (P := fun _ _ => True)
      (fun h input hh _ => regular_hostStep hh input) (regular_start hostaddr ram)
      (Run.allSteps_of_forall fun _ _ => trivial)
  rw [Run.exec_append]
  generalize Run.exec (Host.step fs) (Host.start hostaddr ram) inputs = h at hregular ⊢
  have hhandler : Run.AllSteps (Host.step fs) (fun _ input => ∃ b b', input = .handler b b') h
      (rounds.map fun r => .handler r.1 r.2) := by
    refine Run.allSteps_of_forall fun input hinput => ?_
    obtain ⟨r, -, hr⟩ := List.mem_map.mp hinput
    exact ⟨r.1, r.2, hr.symm⟩
  constructor
  · intro hclosed
    by_contra hhung
    -- a stack that hangs keeps the connection it hangs over
    have hstays : Run.exec (Host.step fs) h (rounds.map fun r => .handler r.1 r.2) = h := by
      refine Run.exec_invariant (fun h' => h' = h) (fun h' input hh' _ => ?_) rfl hhandler
      rw [hh']
      exact step_hung (by simpa using hhung) input
    obtain ⟨i, hi⟩ := hregular.hung (by simpa using hhung)
    rw [hstays] at hclosed
    rw [hclosed i] at hi
    cases hi
  · intro hhung
    refine Run.exec_of_variant Host.Runs (fun h => h.stack.AllClosed) (fun h => h.stack.patience)
      ?_ ?_ ?_ ⟨hhung, hregular⟩ hhandler ?_
    · rintro h _ hruns ⟨b, b', rfl⟩
      exact round_runs hruns b b'
    · rintro h _ hruns hclosed ⟨b, b', rfl⟩
      exact round_closed hruns hclosed b b'
    · rintro h _ hruns ⟨b, b', rfl⟩
      exact round_eases hruns b b'
    · rw [List.length_map]
      exact Nat.lt_of_le_of_lt h.stack.patience_le hrounds

/-- A client that opens a connection and goes away. -/
def silentClient : List HostInput := (lyingRun.take 2).filterMap fun input =>
  match input with
  | .frame x => some (.frame x)
  | .periodic .. => none

theorem silentClient_hung :
    (Run.exec (Host.step default) (Host.start 0xc0a80101 fun _ => 0) silentClient).stack.hung =
      false := by
  decide +kernel

/-- Before the rounds its connection is open, behind them both are closed. -/
theorem closed_run_iff_silentClient :
    ((Run.exec (Host.step default) (Host.start 0xc0a80101 fun _ => 0) silentClient).stack.conns
        0).tcpState = .established ∧
      (Run.exec (Host.step default) (Host.start 0xc0a80101 fun _ => 0)
        (silentClient ++ (List.replicate 1305 (fun _ => 0, fun _ => 0)).map fun r =>
          .handler r.1 r.2)).stack.AllClosed :=
  ⟨by decide +kernel, (closed_run_iff default 0xc0a80101 (fun _ => 0) silentClient _
    (by rw [List.length_replicate]; decide)).mpr silentClient_hung⟩

end Uip
