/-
The calls of the application (`UIP_APPCALL` in `httpd/uip.c`).

A run of `uip_process` calls `httpd_appcall` at most once, and the connection moves on by
the new data of that call.  `Input.call` is the call, label by label of the source, and
`Turn` says what a run of `uip_process` for one connection does:

* `found_turn`, `uipPeriodic_turn` — a segment of a connection, the timer of a connection;
* `newData_foundCall` — new data are the whole segment, and the segment in its turn;
* `stackStep_app`, `exec_app` — the server under the stack is `httpd_appcall` after the
  calls, so that what holds of all its events holds under all frames.
-/
import OpenMptcpRouter.Uip.Sending
import OpenMptcpRouter.Uip.Receive

namespace Uip

open Httpd (Fs Event Flags)

/-! ### The calls -/

/-- The call in case `ESTABLISHED`. -/
def establishedCall (i : Fin 2) (c : Conn) (b : Buf) (d : AppData) (acked malloc : Bool) :
    Option Event :=
  if b.has tcpFin then
    if c.len ≠ 0 then none
    else
      some (appEvent b d i { c with rcvNxt := add32 c.rcvNxt (u16 (1 + d.len)) }
        { close := true, newdata := 0 < d.len } malloc)
  else
    let (urglen, d) := skipUrgent b d
    let newdata : Bool := 0 < d.len
    let c := { c with rcvNxt := add32 (add32 c.rcvNxt urglen) d.len, mss := newMss c b }
    if newdata || acked then
      some (appEvent b d i c { newdata := newdata, ackdata := acked } malloc)
    else none

/-- The call in case `SYN_RCVD`. -/
def synRcvdCall (i : Fin 2) (c : Conn) (b : Buf) (d : AppData) (acked malloc : Bool) :
    Option Event :=
  if acked then
    some (appEvent b d i
      { c with tcpState := .established, len := 0, rcvNxt := add32 c.rcvNxt d.len }
      { connected := true, newdata := 0 < d.len } malloc)
  else none

/-- The call for the peer's FIN in `FIN_WAIT_1` and `FIN_WAIT_2`. -/
def finCall (i : Fin 2) (c : Conn) (b : Buf) (d : AppData) (malloc : Bool) : Option Event :=
  if b.has tcpFin then
    some (appEvent b d i { c with rcvNxt := add32 c.rcvNxt 1 } { close := true } malloc)
  else none

/-- The call behind the label `found`. -/
def foundCall (u : Stack) (i : Fin 2) (b : Buf) (ipLen : ℕ) (malloc : Bool) : Option Event :=
  let c := u.conns i
  if b.has tcpRst then
    let len : ℤ := ipLen
    some (appEvent b ⟨40 + llhLen, u16 len, u16_lt len⟩ i { c with tcpState := .closed }
      { abort := true } malloc)
  else
    let len : ℤ := ipLen - b.hdrLen - 20
    let d : AppData := ⟨40 + llhLen, u16 len, u16_lt len⟩
    if 0 < d.len ∧ b.seqno ≠ c.rcvNxt then none
    else
      let (c, acked) := ackReceived c b
      match c.tcpState with
      | .synRcvd => synRcvdCall i c b d acked malloc
      | .established => establishedCall i c b d acked malloc
      | .lastAck =>
        if acked then some (appEvent b d i { c with tcpState := .closed } { close := true } malloc)
        else none
      | .finWait1 =>
        let c := { c with rcvNxt := add32 c.rcvNxt d.len }
        finCall i (if acked then { c with tcpState := .timeWait, timer := 0, len := 0 }
          else { c with tcpState := .closing }) b d malloc
      | .finWait2 =>
        finCall i { c with rcvNxt := add32 c.rcvNxt d.len, tcpState := .timeWait, timer := 0 } b d
          malloc
      | .closed | .timeWait | .closing => none

/-- The call in `uip_periodic (i)`. -/
def periodicCall (u : Stack) (i : Fin 2) (b : Buf) : Option Event :=
  let c := u.conns i
  if c.tcpState = .timeWait ∨ c.tcpState = .finWait2 then none
  else if c.tcpState = .closed then none
  else if c.len ≠ 0 then
    if c.timer = 0 then
      let c := { c with timer := c.timer - 1 }
      if c.nrtx = 8 ∨ c.tcpState = .synRcvd ∧ c.nrtx = 3 then
        some (appEvent b .nothing i { c with tcpState := .closed } { timedout := true } true)
      else if c.tcpState = .established then
        some (appEvent b .nothing i
          { c with
            timer := rtoInit <<< (if 4 < c.nrtx then 4 else c.nrtx)
            nrtx := c.nrtx + 1 } { rexmit := true } true)
      else none
    else none
  else if c.tcpState = .established then some (appEvent b .nothing i c { poll := true } true)
  else none

/-- The frame gets as far as `tcp_input` with its checksums right. -/
def Proper (hostaddr : ℕ) (b : Buf) : Prop :=
  b.ethType = 0x0800 ∧ b.vhl = 0x45 ∧ (b 20 &&& 0x3f = 0 ∧ b 21 = 0) ∧
    b.destipaddr = hostaddr ∧ uipIpchksum b = 0xffff ∧ b.proto = 6 ∧ uipTcpchksum b = 0xffff

instance (hostaddr : ℕ) (b : Buf) : Decidable (Proper hostaddr b) := by
  unfold Proper; infer_instance

/-- The call a step of the stack makes. -/
def Input.call (u : Stack) : Input → Option Event
  | .frame x =>
    if u.hung = false ∧ Proper u.hostaddr x.buf then
      (demultiplex u x.buf).bind fun i => foundCall u i x.buf x.buf.ipLen x.malloc
    else none
  | .periodic i b => if u.hung then none else periodicCall u i b

/-- The new data a call hands over. -/
def newData : Option Event → List UInt8
  | some e => if e.flags.newdata then e.seg else []
  | none => []

/-! ### Moving on -/

/-- The connection can still receive. -/
def Conn.Live (c : Conn) : Prop := c.tcpState = .synRcvd ∨ c.tcpState = .established

instance (c : Conn) : Decidable c.Live := by unfold Conn.Live; infer_instance

/-- The connection is the same one, and `n` bytes further as long as it can receive. -/
structure Conn.Moves (c c' : Conn) (n : ℕ) : Prop where
  ripaddr : c'.ripaddr = c.ripaddr
  rport : c'.rport = c.rport
  lport : c'.lport = c.lport
  live : c'.Live → c.Live ∧ c'.rcvNxt % 2 ^ 32 = (c.rcvNxt + n) % 2 ^ 32

/-- A run of `uip_process` for connection `i`, with its call; the `skipped` bytes are urgent
and are not handed over. -/
structure Turn (fs : Fs) (u : Stack) (i : Fin 2) (r : Result) (call : Option Event)
    (skipped : ℕ) : Prop where
  app : r.stack.app = Httpd.serve fs u.app call.toList
  hung : r.stack.hung = u.hung
  hostaddr : r.stack.hostaddr = u.hostaddr
  others : ∀ j, j ≠ i → r.stack.conns j = u.conns j
  conn : ∀ e ∈ call, e.conn = i
  moves : (u.conns i).Moves (r.stack.conns i) (skipped + (newData call).length)

section Turns

variable {fs : Fs} {u v : Stack} {i : Fin 2} {c c' : Conn} {b : Buf} {d : AppData} {flags : Flags}
  {malloc acked : Bool} {call : Option Event} {n skipped : ℕ}

theorem Conn.Moves.still (h : c.Moves c' n) {c'' : Conn} (hip : c''.ripaddr = c'.ripaddr)
    (hrport : c''.rport = c'.rport) (hlport : c''.lport = c'.lport)
    (hlive : c''.Live → c'.Live ∧ c''.rcvNxt = c'.rcvNxt) : c.Moves c'' n where
  ripaddr := hip.trans h.ripaddr
  rport := hrport.trans h.rport
  lport := hlport.trans h.lport
  live hl := by
    obtain ⟨hl', hnxt⟩ := hlive hl
    obtain ⟨hc, hnxt'⟩ := h.live hl'
    exact ⟨hc, by rw [hnxt, hnxt']⟩

/-- A connection that stays where it is. -/
theorem Conn.Moves.refl (c : Conn) : c.Moves c 0 where
  ripaddr := rfl
  rport := rfl
  lport := rfl
  live hl := ⟨hl, rfl⟩

/-- A connection that can no longer receive. -/
theorem Conn.Moves.ended (state : TcpState) (h : state ≠ .synRcvd ∧ state ≠ .established)
    (hstate : c'.tcpState = state) (hip : c'.ripaddr = c.ripaddr) (hrport : c'.rport = c.rport)
    (hlport : c'.lport = c.lport) : c.Moves c' n := by
  subst hstate
  exact ⟨hip, hrport, hlport, fun hl => hl.elim (absurd · h.1) (absurd · h.2)⟩

theorem Turn.of_conns {r : Result} (happ : r.stack.app = Httpd.serve fs u.app call.toList)
    (hhung : r.stack.hung = u.hung) (hhost : r.stack.hostaddr = u.hostaddr)
    (hconns : r.stack.conns = Function.update u.conns i c') (hconn : ∀ e ∈ call, e.conn = i)
    (hmoves : (u.conns i).Moves c' (skipped + (newData call).length)) :
    Turn fs u i r call skipped where
  app := happ
  hung := hhung
  hostaddr := hhost
  others j hj := by rw [hconns, Function.update_of_ne hj]
  conn := hconn
  moves := by rwa [hconns, Function.update_self]

theorem forall_conn_appEvent (b : Buf) (d : AppData) (i : Fin 2) (c : Conn) (flags : Flags)
    (malloc : Bool) : ∀ e ∈ some (appEvent b d i c flags malloc), e.conn = i := by
  intro e he
  rw [Option.mem_some_iff] at he
  rw [← he]
  rfl

/-- Nothing is sent, or a segment without data, and the application has not been called. -/
theorem turn_drop (h : (u.conns i).Moves c 0) (acc : List (ℕ × ℕ)) :
    Turn fs u i (drop u i c acc) none 0 :=
  .of_conns rfl rfl rfl rfl (by simp) h

theorem turn_sendNodata (h : (u.conns i).Moves c 0) (fl : UInt8) (acc : List (ℕ × ℕ)) :
    Turn fs u i (sendNodata u i c fl acc) none 0 :=
  .of_conns rfl rfl rfl rfl (by simp) h

/-- The same after a call. -/
theorem turn_called_drop {c₀ : Conn}
    (h : (u.conns i).Moves c
      (skipped + (newData (some (appEvent b d i c₀ flags malloc))).length))
    (acc : List (ℕ × ℕ)) :
    Turn fs u i (drop { u with app := (appcall fs u i c₀ b d flags malloc).app } i c acc)
      (some (appEvent b d i c₀ flags malloc)) skipped :=
  .of_conns rfl rfl rfl rfl (forall_conn_appEvent _ _ _ _ _ _) h

theorem turn_called_sendNodata {c₀ : Conn}
    (h : (u.conns i).Moves c
      (skipped + (newData (some (appEvent b d i c₀ flags malloc))).length)) (fl : UInt8)
    (acc : List (ℕ × ℕ)) :
    Turn fs u i
      (sendNodata { u with app := (appcall fs u i c₀ b d flags malloc).app } i c fl acc)
      (some (appEvent b d i c₀ flags malloc)) skipped :=
  .of_conns rfl rfl rfl rfl (forall_conn_appEvent _ _ _ _ _ _) h

/-- `appsend` sends, closes or resets; nothing more is received. -/
theorem appsend_stack (u : Stack) (i : Fin 2) (c : Conn) (r : Called) :
    ∃ c', (appsend u i c r).stack = { u with app := r.app }.setConn i c' ∧
      c'.ripaddr = c.ripaddr ∧ c'.rport = c.rport ∧ c'.lport = c.lport ∧
      (c'.Live → c.Live ∧ c'.rcvNxt = c.rcvNxt) := by
  by_cases habort : r.flags.abort = true
  · rw [appsend_abort habort]
    exact ⟨_, rfl, rfl, rfl, rfl, fun h => by simp [Conn.Live] at h⟩
  simp only [Bool.not_eq_true] at habort
  by_cases hclose : r.flags.close = true
  · rw [appsend_close habort hclose]
    exact ⟨_, rfl, rfl, rfl, rfl, fun h => by simp [Conn.Live] at h⟩
  simp only [Bool.not_eq_true] at hclose
  rw [appsend_eq habort hclose, apprexmit_stack]
  exact ⟨_, rfl, rfl, rfl, rfl, fun h => ⟨h, rfl⟩⟩

theorem turn_appsend
    (h : (u.conns i).Moves c
      (skipped + (newData (some (appEvent b d i c flags malloc))).length)) :
    Turn fs u i (appsend u i c (appcall fs u i c b d flags malloc))
      (some (appEvent b d i c flags malloc)) skipped := by
  obtain ⟨c', hstack, hip, hrport, hlport, hlive⟩ :=
    appsend_stack u i c (appcall fs u i c b d flags malloc)
  have hmoves := h.still hip hrport hlport hlive
  refine .of_conns ?_ ?_ ?_ ?_ (forall_conn_appEvent _ _ _ _ _ _) hmoves
  all_goals rw [hstack]
  all_goals rfl

theorem ackReceived_moves (c : Conn) (b : Buf) : c.Moves (ackReceived c b).1 0 := by
  rw [ackReceived]
  split
  · rw [estimateRtt]
    dsimp only
    split <;> exact ⟨rfl, rfl, rfl, fun hl => ⟨hl, rfl⟩⟩
  · exact .refl c

/-- Where nothing is urgent, `skipUrgent` leaves the segment as it is. -/
theorem skipUrgent_eq (h : b.urgp = 0) (d : AppData) : skipUrgent b d = (0, d) := by
  obtain ⟨off, len, hlen⟩ := d
  have hlen' : u16 len = len := u16_of_lt hlen
  rw [skipUrgent]
  split
  · simp [h, hlen']
  · simp [h, hlen']

theorem newData_appEvent (flags : Flags) :
    newData (some (appEvent b d i c { flags with newdata := 0 < d.len } malloc)) =
      bytesAt b d.off d.len := by
  rw [newData]
  by_cases hlen : 0 < d.len
  · rw [if_pos (by simpa [appEvent] using hlen)]
    rfl
  · rw [if_neg (by simpa [appEvent] using hlen)]
    rw [Nat.eq_zero_of_not_pos hlen]
    rfl

/-- A segment moves the connection past its data, urgent or not. -/
theorem established_turn (fs : Fs) (b : Buf) (d : AppData) (acked malloc : Bool)
    (h : (u.conns i).Moves c 0) (hest : c.tcpState = .established) :
    ∃ skipped, (b.urgp = 0 → skipped = 0) ∧
      Turn fs u i (established fs u i c b d acked malloc) (establishedCall i c b d acked malloc)
        skipped := by
  obtain ⟨hlive, hnxt⟩ := h.live (Or.inr hest)
  rw [established, establishedCall]
  by_cases hfin : b.has tcpFin = true
  · rw [if_pos hfin, if_pos hfin]
    refine ⟨0, fun _ => rfl, ?_⟩
    by_cases hlen : c.len = 0
    · rw [if_neg (not_not.mpr hlen), if_neg (not_not.mpr hlen)]
      refine turn_called_sendNodata ?_ _ _
      exact .ended .lastAck (by decide) rfl h.ripaddr h.rport h.lport
    · rw [if_pos hlen, if_pos hlen]
      exact turn_drop h _
  rw [if_neg hfin, if_neg hfin]
  refine ⟨(skipUrgent b d).1, fun hurg => by rw [skipUrgent_eq hurg], ?_⟩
  generalize skipUrgent b d = s
  obtain ⟨urglen, d⟩ := s
  dsimp only
  have hmoves : (u.conns i).Moves
      { c with rcvNxt := add32 (add32 c.rcvNxt urglen) d.len, mss := newMss c b }
      (urglen + (bytesAt b d.off d.len).length) := by
    refine ⟨h.ripaddr, h.rport, h.lport, fun _ => ⟨hlive, ?_⟩⟩
    rw [length_bytesAt]
    dsimp only [add32]
    omega
  by_cases hcall : (decide (0 < d.len) || acked) = true
  · rw [if_pos hcall, if_pos hcall]
    refine turn_appsend ?_
    rw [newData_appEvent { ackdata := acked }]
    exact hmoves
  · rw [if_neg hcall, if_neg hcall]
    have hzero : (bytesAt b d.off d.len).length = 0 := by
      simp only [Bool.or_eq_true, decide_eq_true_eq, not_or] at hcall
      rw [length_bytesAt]
      omega
    rw [hzero] at hmoves
    exact .of_conns rfl rfl rfl rfl (by simp) hmoves

/-- The segment that completes the handshake brings its data along. -/
theorem synRcvd_turn (fs : Fs) (b : Buf) (d : AppData) (acked malloc : Bool)
    (h : (u.conns i).Moves c 0) (hsyn : c.tcpState = .synRcvd) :
    Turn fs u i (synRcvd fs u i c b d acked malloc) (synRcvdCall i c b d acked malloc) 0 := by
  obtain ⟨hlive, hnxt⟩ := h.live (Or.inl hsyn)
  rw [synRcvd, synRcvdCall]
  by_cases hacked : acked = true
  · rw [if_pos hacked, if_pos hacked]
    refine turn_appsend ?_
    rw [newData_appEvent { connected := true }, length_bytesAt, Nat.zero_add]
    refine ⟨h.ripaddr, h.rport, h.lport, fun _ => ⟨hlive, ?_⟩⟩
    dsimp only [add32]
    omega
  · rw [if_neg hacked, if_neg hacked]
    exact turn_drop h _

theorem finReceived_turn (state : TcpState) (h : state ≠ .synRcvd ∧ state ≠ .established)
    (hstate : c.tcpState = state) (hip : c.ripaddr = (u.conns i).ripaddr)
    (hrport : c.rport = (u.conns i).rport) (hlport : c.lport = (u.conns i).lport) (hfin : b.has tcpFin = true) :
    Turn fs u i (finReceived fs u i c b d malloc) (finCall i c b d malloc) 0 := by
  rw [finReceived, finCall, if_pos hfin]
  refine turn_called_sendNodata ?_ _ _
  exact .ended state h hstate hip hrport hlport

/-- **A segment of a connection.**  The connection moves past the new data handed over, or
can no longer receive. -/
theorem found_turn (fs : Fs) (u : Stack) (i : Fin 2) (b : Buf) (ipLen : ℕ) (malloc : Bool) :
    ∃ skipped, (b.urgp = 0 → skipped = 0) ∧
      Turn fs u i (found fs u i b ipLen malloc) (foundCall u i b ipLen malloc) skipped := by
  rw [found, foundCall]
  dsimp only
  by_cases hrst : b.has tcpRst = true
  · rw [if_pos hrst, if_pos hrst]
    refine ⟨0, fun _ => rfl, turn_called_drop ?_ _⟩
    exact .ended .closed (by decide) rfl rfl rfl rfl
  rw [if_neg hrst, if_neg hrst]
  by_cases hseq : 0 < u16 (ipLen - b.hdrLen - 20) ∧ b.seqno ≠ (u.conns i).rcvNxt
  · rw [if_pos hseq, if_pos hseq]
    exact ⟨0, fun _ => rfl, turn_sendNodata (.refl _) _ _⟩
  rw [if_neg hseq, if_neg hseq]
  have hmoves := ackReceived_moves (u.conns i) b
  generalize ackReceived (u.conns i) b = ca at hmoves ⊢
  obtain ⟨c, acked⟩ := ca
  dsimp only at hmoves ⊢
  by_cases hest : c.tcpState = .established
  · rw [hest]
    exact established_turn fs b _ acked malloc hmoves hest
  -- nothing is urgent any more
  refine ⟨0, fun _ => rfl, ?_⟩
  rcases hs : c.tcpState with _ | _ | _ | _ | _ | _ | _ | _
  all_goals dsimp only
  case closed => exact turn_drop hmoves _
  case synRcvd => exact synRcvd_turn fs b _ acked malloc hmoves hs
  case established => exact absurd hs hest
  case finWait1 =>
    rw [finWait1]
    by_cases hfin : b.has tcpFin = true
    · rw [if_pos hfin]
      cases acked with
      | true =>
        exact finReceived_turn .timeWait (by decide) rfl hmoves.ripaddr hmoves.rport hmoves.lport hfin
      | false =>
        exact finReceived_turn .closing (by decide) rfl hmoves.ripaddr hmoves.rport hmoves.lport hfin
    · rw [if_neg hfin, finCall, if_neg hfin]
      split
      · refine turn_drop ?_ _
        exact .ended .finWait2 (by decide) rfl hmoves.ripaddr hmoves.rport hmoves.lport
      split
      · refine turn_sendNodata ?_ _ _
        exact .ended .finWait1 (by decide) hs hmoves.ripaddr hmoves.rport hmoves.lport
      · refine turn_drop ?_ _
        exact .ended .finWait1 (by decide) hs hmoves.ripaddr hmoves.rport hmoves.lport
  case finWait2 =>
    rw [finWait2]
    by_cases hfin : b.has tcpFin = true
    · rw [if_pos hfin]
      exact finReceived_turn .timeWait (by decide) rfl hmoves.ripaddr hmoves.rport hmoves.lport hfin
    · rw [if_neg hfin, finCall, if_neg hfin]
      split
      · refine turn_sendNodata ?_ _ _
        exact .ended .finWait2 (by decide) hs hmoves.ripaddr hmoves.rport hmoves.lport
      · refine turn_drop ?_ _
        exact .ended .finWait2 (by decide) hs hmoves.ripaddr hmoves.rport hmoves.lport
  case closing =>
    refine turn_drop ?_ _
    cases acked with
    | true => exact .ended .timeWait (by decide) rfl hmoves.ripaddr hmoves.rport hmoves.lport
    | false => exact hmoves
  case timeWait => exact turn_sendNodata hmoves _ _
  case lastAck =>
    by_cases hacked : acked = true
    · rw [if_pos hacked, if_pos hacked]
      refine turn_called_drop ?_ _
      exact .ended .closed (by decide) rfl hmoves.ripaddr hmoves.rport hmoves.lport
    · rw [if_neg hacked, if_neg hacked]
      exact turn_drop hmoves _

/-- New data are only handed over by a connection that can receive; they are the whole
segment, if nothing in it is urgent, and then only of the segment that comes next. -/
theorem newData_foundCall (u : Stack) (i : Fin 2) (b : Buf) (ipLen : ℕ) (malloc : Bool) :
    newData (foundCall u i b ipLen malloc) = [] ∨
      (u.conns i).Live ∧ b.has tcpRst = false ∧
        (b.urgp = 0 → b.seqno = (u.conns i).rcvNxt ∧
          newData (foundCall u i b ipLen malloc) =
            bytesAt b (40 + llhLen) (u16 (ipLen - b.hdrLen - 20))) := by
  rw [foundCall]
  dsimp only
  by_cases hrst : b.has tcpRst = true
  · rw [if_pos hrst]
    exact Or.inl rfl
  rw [if_neg hrst]
  by_cases hseq : 0 < u16 (ipLen - b.hdrLen - 20) ∧ b.seqno ≠ (u.conns i).rcvNxt
  · rw [if_pos hseq]
    exact Or.inl rfl
  rw [if_neg hseq]
  rw [not_and, not_not] at hseq
  obtain ⟨hkeeps, -, -⟩ := ackReceived_keeps (u.conns i) b
  have hstate := hkeeps.tcpState
  generalize ackReceived (u.conns i) b = ca at hstate ⊢
  obtain ⟨c, acked⟩ := ca
  dsimp only at hstate ⊢
  have hnext : ∀ bytes, (u.conns i).Live →
      bytes = bytesAt b (40 + llhLen) (u16 (ipLen - b.hdrLen - 20)) →
      bytes = [] ∨ (u.conns i).Live ∧ b.has tcpRst = false ∧
        (b.urgp = 0 → b.seqno = (u.conns i).rcvNxt ∧
          bytes = bytesAt b (40 + llhLen) (u16 (ipLen - b.hdrLen - 20))) := by
    intro bytes hlive hbytes
    rcases Nat.eq_zero_or_pos (u16 (ipLen - b.hdrLen - 20)) with hzero | hpos
    · left
      rw [hbytes, hzero]
      rfl
    · exact Or.inr ⟨hlive, by simpa using hrst, fun _ => ⟨hseq hpos, hbytes⟩⟩
  rcases hs : c.tcpState with _ | _ | _ | _ | _ | _ | _ | _
  all_goals dsimp only
  case synRcvd =>
    rw [synRcvdCall]
    split
    · exact hnext _ (Or.inl (hstate.symm.trans hs)) (newData_appEvent { connected := true })
    · exact Or.inl rfl
  case established =>
    have hlive : (u.conns i).Live := Or.inr (hstate.symm.trans hs)
    rw [establishedCall]
    split
    · split
      · exact Or.inl rfl
      · exact hnext _ hlive (newData_appEvent { close := true })
    · by_cases hurg : b.urgp = 0
      · rw [skipUrgent_eq hurg]
        dsimp only
        split
        · exact hnext _ hlive (newData_appEvent { ackdata := acked })
        · exact Or.inl rfl
      · exact Or.inr ⟨hlive, by simpa using hrst, fun h => absurd h hurg⟩
  case lastAck =>
    left
    split <;> rfl
  case finWait1 =>
    left
    rw [finCall]
    split <;> rfl
  case finWait2 =>
    left
    rw [finCall]
    split <;> rfl
  case closed => exact Or.inl rfl
  case closing => exact Or.inl rfl
  case timeWait => exact Or.inl rfl

/-- The timer hands nothing over. -/
theorem newData_periodicCall (u : Stack) (i : Fin 2) (b : Buf) :
    newData (periodicCall u i b) = [] := by
  rw [periodicCall]
  dsimp only
  split
  · rfl
  split
  · rfl
  split
  · split
    · split
      · rfl
      split
      · rfl
      · rfl
    · rfl
  split
  · rfl
  · rfl

/-- Only the counter of the initial sequence numbers is different. -/
theorem Turn.of_iss {r : Result} (iss : ℕ) (h : Turn fs { u with iss := iss } i r call skipped) :
    Turn fs u i r call skipped :=
  ⟨h.app, h.hung, h.hostaddr, h.others, h.conn, h.moves⟩

/-- **The timer of a connection.** -/
theorem uipPeriodic_turn (fs : Fs) (u : Stack) (i : Fin 2) (b : Buf) :
    Turn fs u i (uipPeriodic fs u i b) (periodicCall u i b) 0 := by
  refine .of_iss (add32 u.iss 1) ?_
  rw [uipPeriodic, periodicCall]
  dsimp only
  generalize hc : u.conns i = c
  have hrefl : (Stack.conns { u with iss := add32 u.iss 1 } i).Moves c 0 := by
    rw [← hc]
    exact .refl _
  have hstill : ∀ {c' : Conn}, c'.ripaddr = c.ripaddr → c'.rport = c.rport → c'.lport = c.lport →
      c'.tcpState = c.tcpState → c'.rcvNxt = c.rcvNxt →
      (Stack.conns { u with iss := add32 u.iss 1 } i).Moves c' 0 := by
    intro c' hip hrport hlport hstate hnxt
    refine hrefl.still hip hrport hlport fun hl => ⟨?_, hnxt⟩
    rwa [Conn.Live, hstate] at hl
  by_cases hwait : c.tcpState = .timeWait ∨ c.tcpState = .finWait2
  · rw [if_pos hwait, if_pos hwait]
    refine turn_drop ?_ _
    split
    · exact .ended .closed (by decide) rfl (by rw [← hc]) (by rw [← hc]) (by rw [← hc])
    · exact hstill rfl rfl rfl rfl rfl
  rw [if_neg hwait, if_neg hwait]
  by_cases hclosed : c.tcpState = .closed
  · rw [if_pos hclosed, if_pos hclosed]
    exact .of_conns rfl rfl rfl (Function.update_eq_self i _).symm (by simp) (.refl _)
  rw [if_neg hclosed, if_neg hclosed]
  by_cases hlen : c.len = 0
  · rw [if_neg (not_not.mpr hlen), if_neg (not_not.mpr hlen)]
    by_cases hest : c.tcpState = .established
    · rw [if_pos hest, if_pos hest]
      exact turn_appsend hrefl
    · rw [if_neg hest, if_neg hest]
      exact .of_conns rfl rfl rfl (Function.update_eq_self i _).symm (by simp) (.refl _)
  rw [if_pos hlen, if_pos hlen]
  by_cases hfired : c.timer = 0
  swap
  · rw [if_neg (by simpa using hfired), if_neg hfired]
    refine turn_drop ?_ _
    exact hstill rfl rfl rfl rfl rfl
  rw [if_pos (by simpa using hfired), if_pos hfired]
  by_cases hgiven : c.nrtx = 8 ∨ c.tcpState = .synRcvd ∧ c.nrtx = 3
  · -- too many retransmissions
    rw [if_pos hgiven, if_pos hgiven]
    refine turn_called_sendNodata ?_ _ _
    exact .ended .closed (by decide) rfl (by rw [← hc]) (by rw [← hc]) (by rw [← hc])
  rw [if_neg hgiven, if_neg hgiven]
  by_cases hsyn : c.tcpState = .synRcvd
  · have hest : ¬ c.tcpState = .established := by
      rw [hsyn]
      decide
    rw [if_pos hsyn, if_neg hest]
    refine turn_sendNodata ?_ _ _
    exact hstill rfl rfl rfl rfl rfl
  rw [if_neg hsyn]
  by_cases hest : c.tcpState = .established
  · rw [if_pos hest, if_pos hest]
    have hmoves : (Stack.conns { u with iss := add32 u.iss 1 } i).Moves
        { c with timer := rtoInit <<< (if 4 < c.nrtx then 4 else c.nrtx), nrtx := c.nrtx + 1 } 0 :=
      hstill rfl rfl rfl rfl rfl
    refine .of_conns ?_ ?_ ?_ ?_ (forall_conn_appEvent _ _ _ _ _ _) hmoves
    all_goals rw [apprexmit_stack]
    all_goals rfl
  · rw [if_neg hest, if_neg hest]
    refine turn_sendNodata ?_ _ _
    exact hstill rfl rfl rfl rfl rfl

end Turns

/-! ### One step of the stack -/

/-- What a step of the stack comes to, with its call. -/
inductive StepCase (fs : Fs) (u : Stack) : Input → Stack → Option Event → Prop
  | idle (input : Input) : StepCase fs u input u none
  | segment (x : Rx) (i : Fin 2) (hproper : Proper u.hostaddr x.buf) (hdemux : demultiplex u x.buf = some i) :
      StepCase fs u (.frame x) (found fs u i x.buf x.buf.ipLen x.malloc).stack
        (foundCall u i x.buf x.buf.ipLen x.malloc)
  | listen (x : Rx) (hproper : Proper u.hostaddr x.buf) (hdemux : demultiplex u x.buf = none)
      (hsyn : x.buf.flags &&& tcpCtl = tcpSyn) (hport : x.buf.destport = 80) :
      StepCase fs u (.frame x) (foundListen u x.buf).stack none
  | timer (i : Fin 2) (b : Buf) :
      StepCase fs u (.periodic i b) (uipPeriodic fs u i b).stack (periodicCall u i b)

theorem reset_stack (u : Stack) (b : Buf) : (reset u b).stack = u := by
  rw [reset]
  split <;> rfl

/-- A frame whose checksums are right comes to `tcp_input`. -/
theorem netReceiveHttpd_proper (fs : Fs) {u : Stack} {x : Rx} (h : Proper u.hostaddr x.buf) :
    (netReceiveHttpd fs u x).stack = (tcpInput fs u x.buf x.buf.ipLen x.malloc).stack := by
  obtain ⟨htype, hvhl, hfrag, hdest, hip, hproto, -⟩ := h
  rw [netReceiveHttpd, if_pos htype]
  dsimp only
  rw [uipInput, if_neg (not_not.mpr hvhl), ipLength_eq, if_neg (by simp [hfrag]),
    if_neg (not_not.mpr hdest), if_neg (not_not.mpr hip), if_pos hproto]

/-- Any other frame is dropped. -/
theorem netReceiveHttpd_dropped (fs : Fs) {u : Stack} {x : Rx} (h : ¬ Proper u.hostaddr x.buf) :
    (netReceiveHttpd fs u x).stack = u := by
  rw [netReceiveHttpd]
  by_cases htype : x.buf.ethType = 0x0800
  swap
  · rw [if_neg htype]
  rw [if_pos htype]
  dsimp only
  rw [uipInput]
  by_cases hvhl : x.buf.vhl = 0x45
  swap
  · rw [if_pos hvhl]
  rw [if_neg (not_not.mpr hvhl), ipLength_eq]
  by_cases hfrag : x.buf 20 &&& 0x3f ≠ 0 ∨ x.buf 21 ≠ 0
  · rw [if_pos hfrag]
  rw [if_neg hfrag]
  by_cases hdest : x.buf.destipaddr = u.hostaddr
  swap
  · rw [if_pos hdest]
  rw [if_neg (not_not.mpr hdest)]
  by_cases hip : uipIpchksum x.buf = 0xffff
  swap
  · rw [if_pos hip]
  rw [if_neg (not_not.mpr hip)]
  by_cases hproto : x.buf.proto = 6
  swap
  · rw [if_neg hproto]
    split <;> rfl
  rw [if_pos hproto, tcpInput]
  by_cases htcp : uipTcpchksum x.buf = 0xffff
  swap
  · rw [if_pos htcp]
  rw [not_or, not_not, not_not] at hfrag
  exact absurd ⟨htype, hvhl, hfrag, hdest, hip, hproto, htcp⟩ h

/-- Every step of the stack is one of these. -/
theorem stepCase (fs : Fs) (u : Stack) (input : Input) :
    StepCase fs u input (stackStep fs u input).1 (input.call u) := by
  unfold stackStep
  by_cases hhung : u.hung = true
  · have hcall : input.call u = none := by
      cases input with
      | frame x => exact if_neg fun h => by simp [hhung] at h
      | periodic i b => exact if_pos hhung
    rw [if_pos hhung, hcall]
    exact .idle input
  rw [if_neg hhung]
  cases input with
  | periodic i b =>
    rw [Input.call, if_neg hhung]
    exact .timer i b
  | frame x =>
    rw [Input.call]
    dsimp only
    by_cases hproper : Proper u.hostaddr x.buf
    swap
    · -- the frame is dropped before it comes to TCP
      rw [if_neg fun h => hproper h.2]
      rw [netReceiveHttpd_dropped fs hproper]
      exact .idle _
    rw [if_pos ⟨by simpa using hhung, hproper⟩, netReceiveHttpd_proper fs hproper, tcpInput,
      if_neg (not_not.mpr hproper.2.2.2.2.2.2)]
    rcases hdemux : demultiplex u x.buf with _ | i
    · dsimp only [Option.bind_none]
      by_cases hsyn : x.buf.flags &&& tcpCtl = tcpSyn
      swap
      · rw [if_pos hsyn, reset_stack]
        exact .idle _
      rw [if_neg (not_not.mpr hsyn)]
      by_cases hport : x.buf.destport = 80
      · rw [if_pos hport]
        exact .listen x hproper hdemux hsyn hport
      · rw [if_neg hport, reset_stack]
        exact .idle _
    · exact .segment x i hproper hdemux

/-- A SYN for which there is no connection changes nothing; otherwise it opens the one that
is free. -/
theorem foundListen_stack (u : Stack) (b : Buf) :
    freeConn u.conns = none ∧ (foundListen u b).stack = u ∨
      ∃ i c, freeConn u.conns = some i ∧
        (foundListen u b).stack.conns = Function.update u.conns i c ∧
        (foundListen u b).stack.app = u.app ∧ (foundListen u b).stack.hostaddr = u.hostaddr ∧
        c.tcpState = .synRcvd ∧ c.ripaddr = b.srcipaddr ∧ c.rport = b.srcport ∧
        c.lport = b.destport ∧ c.rcvNxt = add32 b.seqno 1 ∧ c.len = 1 := by
  rw [foundListen]
  rcases hfree : freeConn u.conns with _ | i
  · exact Or.inl ⟨rfl, rfl⟩
  right
  dsimp only
  split
  · exact ⟨i, _, rfl, rfl, rfl, rfl, rfl, rfl, rfl, rfl, rfl, rfl⟩
  · exact ⟨i, _, rfl, rfl, rfl, rfl, rfl, rfl, rfl, rfl, rfl, rfl⟩
  · exact ⟨i, _, rfl, rfl, rfl, rfl, rfl, rfl, rfl, rfl, rfl, rfl⟩

/-- **The application under one step** is `httpd_appcall` after the call of the step. -/
theorem stackStep_app (fs : Fs) (u : Stack) (input : Input) :
    (stackStep fs u input).1.app = Httpd.serve fs u.app (input.call u).toList := by
  have hcase := stepCase fs u input
  generalize (stackStep fs u input).1 = v, input.call u = call at hcase ⊢
  cases hcase with
  | idle => rfl
  | segment x i =>
    obtain ⟨skipped, -, hturn⟩ := found_turn fs u i x.buf x.buf.ipLen x.malloc
    exact hturn.app
  | listen x =>
    rcases foundListen_stack u x.buf with ⟨-, hstack⟩ | ⟨i, c, -, -, happ, -⟩
    · rw [hstack]
      rfl
    · exact happ
  | timer i b => exact (uipPeriodic_turn fs u i b).app

/-- The calls of a run of the stack. -/
def calls (fs : Fs) (u : Stack) : List Input → List Event
  | [] => []
  | input :: inputs => (input.call u).toList ++ calls fs (stackStep fs u input).1 inputs

/-- **The application under a run** is `httpd_appcall` after the calls of the run. -/
theorem exec_app (fs : Fs) (u : Stack) (inputs : List Input) :
    (Run.exec (stackStep fs) u inputs).app = Httpd.serve fs u.app (calls fs u inputs) := by
  induction inputs generalizing u with
  | nil => rfl
  | cons input inputs ih =>
    rw [Run.exec_cons, ih, stackStep_app, calls, Httpd.serve, Httpd.serve, Httpd.serve,
      Run.exec_append]

end Uip
