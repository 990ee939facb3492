/-
What other stations read in the frames of the server.

* `sized_step` — the numbers of a connection fit the fields of its segments, in every run;
* `delivered_run` — **every frame says what was meant**: its checksums are right, its fields are
  those of the packet, and a frame that is sent instead asks for the next hop;
* `echo_right_iff` — when the answer to a ping has the right checksum;
* `resolves` — one request and one reply are enough for two stations to know each other.
-/
import OpenMptcpRouter.Uip.Stream
import OpenMptcpRouter.Uip.Wire

namespace Uip

open OnesComplement
open Httpd (Fs Flags)

/-! ### The packets of a connection -/

/-- A run of `uip_process` for connection `i`, which is one from port `lport` to `rport` of
`ripaddr`: what it sends has the numbers of the connection, and as much data as is
outstanding, or less if the page ends. -/
structure Sends (u : Stack) (i : Fin 2) (ripaddr lport rport : ℕ) (r : Result) : Prop where
  others : ∀ j, j ≠ i → r.stack.conns j = u.conns j
  iss : r.stack.iss = u.iss
  sized : (r.stack.conns i).Sized
  ripaddr : (r.stack.conns i).ripaddr = ripaddr
  lport : (r.stack.conns i).lport = lport
  rport : (r.stack.conns i).rport = rport
  sent : ∀ packet ∈ r.sent, ∃ flags data,
    packet = .tcp flags (r.stack.conns i).sndNxt (r.stack.conns i).rcvNxt data ∧
      (data ≠ [] → flags = tcpAck ||| tcpPsh ∧ data.length ≤ (r.stack.conns i).len)

section Labels

variable {fs : Fs} {u : Stack} {i : Fin 2} {c c' : Conn} {b : Buf} {d : AppData} {flags : Flags}
  {malloc acked : Bool} {ipLen : ℕ}

theorem Sends.of_conns {r : Result} (hconns : r.stack.conns = Function.update u.conns i c)
    (hiss : r.stack.iss = u.iss) (hc : c.Sized)
    (hsent : ∀ packet ∈ r.sent, ∃ flags data, packet = .tcp flags c.sndNxt c.rcvNxt data ∧
      (data ≠ [] → flags = tcpAck ||| tcpPsh ∧ data.length ≤ c.len)) :
    Sends u i c.ripaddr c.lport c.rport r := by
  have hconn : r.stack.conns i = c := by
    rw [hconns]
    exact Function.update_self ..
  exact
    { others := fun j hj => by rw [hconns, Function.update_of_ne hj]
      iss := hiss
      sized := by rw [hconn]; exact hc
      ripaddr := congrArg Conn.ripaddr hconn
      lport := congrArg Conn.lport hconn
      rport := congrArg Conn.rport hconn
      sent := by rw [hconn]; exact hsent }

theorem sends_drop (hc : c.Sized) (acc : List (ℕ × ℕ)) :
    Sends u i c.ripaddr c.lport c.rport (drop u i c acc) :=
  .of_conns rfl rfl hc fun _ h => by cases h

theorem sends_sendNodata (hc : c.Sized) (fl : UInt8) (acc : List (ℕ × ℕ)) :
    Sends u i c.ripaddr c.lport c.rport (sendNodata u i c fl acc) :=
  .of_conns rfl rfl hc fun _ h => ⟨fl, [], (Option.some.inj h).symm, fun h => absurd rfl h⟩

theorem sends_apprexmit (hc : c.Sized) (r : Called) (slen : ℕ) :
    Sends u i c.ripaddr c.lport c.rport (apprexmit u i c r slen) := by
  rw [apprexmit]
  by_cases hsend : 0 < slen ∧ 0 < c.len
  · rw [if_pos hsend]
    refine .of_conns rfl rfl hc fun packet h => ?_
    exact ⟨_, _, (Option.some.inj h).symm, fun _ => ⟨rfl, List.length_take_le ..⟩⟩
  rw [if_neg hsend]
  by_cases hnew : r.flags.newdata = true
  · rw [if_pos hnew]
    exact sends_sendNodata hc _ _
  · rw [if_neg hnew]
    exact sends_drop hc _

/-- The application may have changed in between. -/
theorem Sends.of_app {v : Stack} {r : Result} {ip lp rp : ℕ} (h : Sends v i ip lp rp r)
    (hconns : v.conns = u.conns) (hiss : v.iss = u.iss) : Sends u i ip lp rp r :=
  { h with
    others := fun j hj => (h.others j hj).trans (congrFun hconns j)
    iss := h.iss.trans hiss }

theorem one_le_tcpMss : 1 ≤ tcpMss := by decide

theorem newLen_le (hc : c.Sized) (r : Called) : newLen c r ≤ tcpMss := by
  have hlen := hc.len
  have hmss := Nat.le_trans hc.mss hc.initialmss
  rw [newLen]
  split
  · exact Nat.zero_le _
  split
  · exact Nat.le_trans (Nat.min_le_right ..) hmss
  · exact hlen

theorem sends_appsend (hc : c.Sized) (r : Called) :
    Sends u i c.ripaddr c.lport c.rport (appsend u i c r) := by
  by_cases habort : r.flags.abort = true
  · rw [appsend, if_pos habort]
    have hc' : ({ c with tcpState := .closed } : Conn).Sized :=
      ⟨hc.ripaddr, hc.lport, hc.rport, hc.rcvNxt, hc.sndNxt, hc.len, hc.mss, hc.initialmss⟩
    exact (sends_sendNodata hc' _ _).of_app rfl rfl
  by_cases hclose : r.flags.close = true
  · rw [appsend, if_neg habort, if_pos hclose]
    have hc' : ({ c with len := 1, tcpState := .finWait1, nrtx := 0 } : Conn).Sized :=
      ⟨hc.ripaddr, hc.lport, hc.rport, hc.rcvNxt, hc.sndNxt, one_le_tcpMss, hc.mss, hc.initialmss⟩
    exact (sends_sendNodata hc' _ _).of_app rfl rfl
  · rw [appsend_eq (by simpa using habort) (by simpa using hclose)]
    have hc' : ({ c with len := newLen c r, nrtx := 0 } : Conn).Sized :=
      ⟨hc.ripaddr, hc.lport, hc.rport, hc.rcvNxt, hc.sndNxt, newLen_le hc r, hc.mss, hc.initialmss⟩
    exact (sends_apprexmit hc' _ _).of_app rfl rfl

theorem add32_lt (x n : ℕ) : add32 x n < 2 ^ 32 := Nat.mod_lt _ (by decide)

/-- The connection after the segment's acknowledgement. -/
theorem Conn.Sized.of_ack (hc : c.Sized) (b : Buf) :
    (ackReceived c b).1.Sized ∧ (ackReceived c b).1.ripaddr = c.ripaddr ∧
      (ackReceived c b).1.lport = c.lport ∧ (ackReceived c b).1.rport = c.rport := by
  rw [ackReceived]
  by_cases hack : b.has tcpAck = true ∧ c.len ≠ 0 ∧ b.ackno = add32 c.sndNxt c.len
  · rw [if_pos hack, estimateRtt]
    split
    · exact ⟨⟨hc.ripaddr, hc.lport, hc.rport, hc.rcvNxt, add32_lt _ _, hc.len, hc.mss,
        hc.initialmss⟩, rfl, rfl, rfl⟩
    · exact ⟨⟨hc.ripaddr, hc.lport, hc.rport, hc.rcvNxt, add32_lt _ _, hc.len, hc.mss,
        hc.initialmss⟩, rfl, rfl, rfl⟩
  · rw [if_neg hack]
    exact ⟨hc, rfl, rfl, rfl⟩

theorem sends_established (hc : c.Sized) :
    Sends u i c.ripaddr c.lport c.rport (established fs u i c b d acked malloc) := by
  rw [established]
  by_cases hfin : b.has tcpFin = true
  · rw [if_pos hfin]
    by_cases hlen : c.len ≠ 0
    · rw [if_pos hlen]
      exact sends_drop hc _
    · rw [if_neg hlen]
      have hc' : ({ c with
          rcvNxt := add32 c.rcvNxt (u16 (1 + d.len)), len := 1, tcpState := .lastAck, nrtx := 0 } :
          Conn).Sized :=
        ⟨hc.ripaddr, hc.lport, hc.rport, add32_lt _ _, hc.sndNxt, one_le_tcpMss, hc.mss, hc.initialmss⟩
      exact (sends_sendNodata hc' _ _).of_app rfl rfl
  rw [if_neg hfin]
  dsimp only
  have hwnd : (if c.initialmss < b.wnd ∨ b.wnd = 0 then c.initialmss else b.wnd) ≤ c.initialmss := by
    split
    · exact Nat.le_refl _
    · omega
  have hc' : ({ c with
      rcvNxt := add32 (add32 c.rcvNxt (skipUrgent b d).1) (skipUrgent b d).2.len
      mss := if c.initialmss < b.wnd ∨ b.wnd = 0 then c.initialmss else b.wnd } : Conn).Sized :=
    ⟨hc.ripaddr, hc.lport, hc.rport, add32_lt _ _, hc.sndNxt, hc.len, hwnd, hc.initialmss⟩
  split
  · exact sends_appsend hc' _
  · exact sends_drop hc' _

theorem sends_synRcvd (hc : c.Sized) :
    Sends u i c.ripaddr c.lport c.rport (synRcvd fs u i c b d acked malloc) := by
  rw [synRcvd]
  split
  · have hc' : ({ c with
        tcpState := .established, len := 0, rcvNxt := add32 c.rcvNxt d.len } : Conn).Sized :=
      ⟨hc.ripaddr, hc.lport, hc.rport, add32_lt _ _, hc.sndNxt, Nat.zero_le _, hc.mss,
        hc.initialmss⟩
    exact sends_appsend hc' _
  · exact sends_drop hc _

theorem sends_finReceived (hc : c.Sized) :
    Sends u i c.ripaddr c.lport c.rport (finReceived fs u i c b d malloc) := by
  have hc' : ({ c with rcvNxt := add32 c.rcvNxt 1 } : Conn).Sized :=
    ⟨hc.ripaddr, hc.lport, hc.rport, add32_lt _ _, hc.sndNxt, hc.len, hc.mss, hc.initialmss⟩
  exact (sends_sendNodata hc' _ _).of_app rfl rfl

theorem sends_finWait1 (hc : c.Sized) :
    Sends u i c.ripaddr c.lport c.rport (finWait1 fs u i c b d acked malloc) := by
  have hc' : ({ c with rcvNxt := add32 c.rcvNxt d.len } : Conn).Sized :=
    ⟨hc.ripaddr, hc.lport, hc.rport, add32_lt _ _, hc.sndNxt, hc.len, hc.mss, hc.initialmss⟩
  rw [finWait1]
  by_cases hfin : b.has tcpFin = true
  · rw [if_pos hfin]
    cases acked with
    | true =>
      exact sends_finReceived (c := { c with
        rcvNxt := add32 c.rcvNxt d.len, tcpState := .timeWait, timer := 0, len := 0 })
        ⟨hc.ripaddr, hc.lport, hc.rport, add32_lt _ _, hc.sndNxt, Nat.zero_le _, hc.mss,
          hc.initialmss⟩
    | false =>
      exact sends_finReceived (c := { c with
        rcvNxt := add32 c.rcvNxt d.len, tcpState := .closing })
        ⟨hc.ripaddr, hc.lport, hc.rport, add32_lt _ _, hc.sndNxt, hc.len, hc.mss, hc.initialmss⟩
  rw [if_neg hfin]
  split
  · exact sends_drop (c := { c with
      rcvNxt := add32 c.rcvNxt d.len, tcpState := .finWait2, len := 0 })
      ⟨hc.ripaddr, hc.lport, hc.rport, add32_lt _ _, hc.sndNxt, Nat.zero_le _, hc.mss,
        hc.initialmss⟩ _
  split
  · exact sends_sendNodata hc' _ _
  · exact sends_drop hc' _

theorem sends_finWait2 (hc : c.Sized) :
    Sends u i c.ripaddr c.lport c.rport (finWait2 fs u i c b d malloc) := by
  have hc' : ({ c with rcvNxt := add32 c.rcvNxt d.len } : Conn).Sized :=
    ⟨hc.ripaddr, hc.lport, hc.rport, add32_lt _ _, hc.sndNxt, hc.len, hc.mss, hc.initialmss⟩
  rw [finWait2]
  by_cases hfin : b.has tcpFin = true
  · rw [if_pos hfin]
    exact sends_finReceived (c := { c with
      rcvNxt := add32 c.rcvNxt d.len, tcpState := .timeWait, timer := 0 })
      ⟨hc.ripaddr, hc.lport, hc.rport, add32_lt _ _, hc.sndNxt, hc.len, hc.mss, hc.initialmss⟩
  rw [if_neg hfin]
  split
  · exact sends_sendNodata hc' _ _
  · exact sends_drop hc' _

/-- **A segment of a connection** is answered with the numbers of the connection. -/
theorem sends_found (hc : (u.conns i).Sized) :
    Sends u i (u.conns i).ripaddr (u.conns i).lport (u.conns i).rport
      (found fs u i b ipLen malloc) := by
  obtain ⟨hacked, hip, hlport, hrport⟩ := hc.of_ack b
  have hstate : ∀ state, ({ (u.conns i) with tcpState := state } : Conn).Sized := fun _ =>
    ⟨hc.ripaddr, hc.lport, hc.rport, hc.rcvNxt, hc.sndNxt, hc.len, hc.mss, hc.initialmss⟩
  rw [found]
  dsimp only
  by_cases hrst : b.has tcpRst = true
  · rw [if_pos hrst]
    exact (sends_drop (hstate .closed) _).of_app rfl rfl
  rw [if_neg hrst]
  by_cases hseq : 0 < u16 (ipLen - b.hdrLen - 20) ∧ b.seqno ≠ (u.conns i).rcvNxt
  · rw [if_pos hseq]
    exact sends_sendNodata hc _ _
  rw [if_neg hseq, ← hip, ← hlport, ← hrport]
  generalize ackReceived (u.conns i) b = ca at hacked ⊢
  obtain ⟨c, acked⟩ := ca
  dsimp only at hacked ⊢
  have hstate' : ∀ state, ({ c with tcpState := state } : Conn).Sized := fun _ =>
    ⟨hacked.ripaddr, hacked.lport, hacked.rport, hacked.rcvNxt, hacked.sndNxt, hacked.len,
      hacked.mss, hacked.initialmss⟩
  rcases c.tcpState with _ | _ | _ | _ | _ | _ | _ | _
  all_goals dsimp only
  case closed => exact sends_drop hacked _
  case synRcvd => exact sends_synRcvd hacked
  case established => exact sends_established hacked
  case finWait1 => exact sends_finWait1 hacked
  case finWait2 => exact sends_finWait2 hacked
  case timeWait => exact sends_sendNodata hacked _ _
  case lastAck =>
    split
    · exact (sends_drop (hstate' .closed) _).of_app rfl rfl
    · exact sends_drop hacked _
  case closing =>
    cases acked with
    | true =>
      exact sends_drop (c := { c with tcpState := .timeWait, timer := 0 })
        ⟨hacked.ripaddr, hacked.lport, hacked.rport, hacked.rcvNxt, hacked.sndNxt, hacked.len,
          hacked.mss, hacked.initialmss⟩ _
    | false => exact sends_drop hacked _

end Labels

/-! ### Every step -/

/-- The numbers of the stack fit their fields. -/
structure Stack.Sized (u : Stack) : Prop where
  conns : ∀ i, (u.conns i).Sized
  iss : u.iss < 2 ^ 32

/-- The connection a segment is answered by. -/
def answeredBy (u : Stack) (b : Buf) : Option (Fin 2) :=
  match demultiplex u b with
  | some i => some i
  | none => if b.flags &&& tcpCtl = tcpSyn ∧ b.destport = 80 then freeConn u.conns else none

/-- An echo request for `hostaddr`. -/
def Pings (hostaddr : ℕ) (b : Buf) : Prop :=
  b.ethType = 0x0800 ∧ b.vhl = 0x45 ∧ (b 20 &&& 0x3f = 0 ∧ b 21 = 0) ∧
    b.destipaddr = hostaddr ∧ uipIpchksum b = 0xffff ∧ b.proto = 1 ∧ b 34 = 8

section Step

variable {fs : Fs} {u : Stack} {b : Buf} {malloc : Bool} {ipLen : ℕ}

theorem Sends.stack_sized {i : Fin 2} {ip lp rp : ℕ} {r : Result} (h : Sends u i ip lp rp r)
    (hu : u.Sized) (hiss : r.stack.iss < 2 ^ 32) : r.stack.Sized := by
  refine ⟨fun j => ?_, hiss⟩
  by_cases hj : j = i
  · rw [hj]
    exact h.sized
  · rw [h.others j hj]
    exact hu.conns j

/-- A `SYN` opens a connection. -/
theorem sends_foundListen {i : Fin 2} (hu : u.Sized) (hfree : freeConn u.conns = some i) :
    Sends u i b.srcipaddr b.destport b.srcport (foundListen u b) := by
  have hc := hu.conns i
  -- without an option the connection keeps the segment sizes of its last use
  have hkeep : ({ u.conns i with
      rto := rtoInit, timer := rtoInit, sa := 0, sv := 4, nrtx := 0
      lport := b.destport, rport := b.srcport, ripaddr := b.srcipaddr
      tcpState := .synRcvd, sndNxt := u.iss, len := 1, rcvNxt := add32 b.seqno 1 } : Conn).Sized :=
    ⟨be32_lt b 26, be16_lt b 36, be16_lt b 34, add32_lt _ _, hu.iss, one_le_tcpMss, hc.mss,
      hc.initialmss⟩
  rw [foundListen, hfree]
  dsimp only
  split
  · exact sends_sendNodata hkeep _ _
  · rename_i v hv
    refine sends_sendNodata (c := { u.conns i with
      rto := rtoInit, timer := rtoInit, sa := 0, sv := 4, nrtx := 0
      lport := b.destport, rport := b.srcport, ripaddr := b.srcipaddr
      tcpState := .synRcvd, sndNxt := u.iss, len := 1, rcvNxt := add32 b.seqno 1
      initialmss := if tcpMss < v then tcpMss else v
      mss := if tcpMss < v then tcpMss else v }) ?_ _ _
    refine ⟨be32_lt b 26, be16_lt b 36, be16_lt b 34, add32_lt _ _, hu.iss, one_le_tcpMss,
      Nat.le_refl _, ?_⟩
    show (if tcpMss < v then tcpMss else v) ≤ tcpMss
    split
    · exact Nat.le_refl _
    · omega
  · refine Sends.of_conns (u := u) (i := i) ?_ ?_ hkeep fun _ h => ?_
    · rfl
    · rfl
    · cases h

/-- What comes of an IP packet. -/
theorem uipInput_spec (fs : Fs) (hu : u.Sized) (b : Buf) (len : ℕ) (malloc : Bool)
    (htype : b.ethType = 0x0800) :
    (uipInput fs u b len malloc).stack = u ∧
        (∀ packet ∈ (uipInput fs u b len malloc).sent,
          packet = .echoReply ∧ Pings u.hostaddr b ∨
            packet = .tcp (tcpRst ||| tcpAck) b.ackno (add32 b.seqno 1) [] ∧
              answeredBy u b = none ∧ b.proto = 6 ∧ b.destipaddr = u.hostaddr) ∨
      ∃ i, answeredBy u b = some i ∧
        Sends u i b.srcipaddr b.destport b.srcport (uipInput fs u b len malloc) := by
  rw [uipInput]
  dsimp only
  by_cases hvhl : b.vhl ≠ 0x45
  · rw [if_pos hvhl]
    exact Or.inl ⟨rfl, fun _ h => by cases h⟩
  rw [if_neg hvhl]
  by_cases hfrag : b 20 &&& 0x3f ≠ 0 ∨ b 21 ≠ 0
  · rw [if_pos hfrag]
    exact Or.inl ⟨rfl, fun _ h => by cases h⟩
  rw [if_neg hfrag]
  by_cases hdest : b.destipaddr ≠ u.hostaddr
  · rw [if_pos hdest]
    exact Or.inl ⟨rfl, fun _ h => by cases h⟩
  rw [if_neg hdest]
  by_cases hip : uipIpchksum b ≠ 0xffff
  · rw [if_pos hip]
    exact Or.inl ⟨rfl, fun _ h => by cases h⟩
  rw [if_neg hip]
  by_cases hproto : b.proto = 6
  · rw [if_pos hproto, tcpInput]
    by_cases htcp : uipTcpchksum b ≠ 0xffff
    · rw [if_pos htcp]
      exact Or.inl ⟨rfl, fun _ h => by cases h⟩
    rw [if_neg htcp]
    have hreset : answeredBy u b = none → (reset u b).stack = u ∧
        ∀ packet ∈ (reset u b).sent, packet = .echoReply ∧ Pings u.hostaddr b ∨
          packet = .tcp (tcpRst ||| tcpAck) b.ackno (add32 b.seqno 1) [] ∧
            answeredBy u b = none ∧ b.proto = 6 ∧ b.destipaddr = u.hostaddr := by
      intro hnone
      rw [reset]
      split
      · exact ⟨rfl, fun _ h => by cases h⟩
      · exact ⟨rfl, fun packet h => Or.inr ⟨(Option.some.inj h).symm, hnone, hproto,
          not_not.mp hdest⟩⟩
    rcases hdemux : demultiplex u b with _ | i
    · have hanswered : answeredBy u b =
          if b.flags &&& tcpCtl = tcpSyn ∧ b.destport = 80 then freeConn u.conns else none := by
        rw [answeredBy, hdemux]
      dsimp only
      by_cases hsyn : b.flags &&& tcpCtl ≠ tcpSyn
      · rw [if_pos hsyn]
        exact Or.inl (hreset (hanswered.trans (if_neg fun h => hsyn h.1)))
      rw [if_neg hsyn]
      by_cases hport : b.destport = 80
      · rw [if_pos hport]
        rw [if_pos ⟨not_not.mp hsyn, hport⟩] at hanswered
        rcases hfree : freeConn u.conns with _ | i
        · rw [foundListen, hfree]
          exact Or.inl ⟨rfl, fun _ h => by cases h⟩
        · exact Or.inr ⟨i, hanswered.trans hfree, sends_foundListen hu hfree⟩
      · rw [if_neg hport]
        exact Or.inl (hreset (hanswered.trans (if_neg fun h => hport h.2)))
    · obtain ⟨-, hlport, hrport, hip⟩ := demultiplex_spec hdemux
      refine Or.inr ⟨i, ?_, ?_⟩
      · rw [answeredBy, hdemux]
      · rw [hip, hlport, hrport]
        exact sends_found (hu.conns i)
  rw [if_neg hproto]
  by_cases hping : b.proto = 1 ∧ b 34 = 8
  · rw [if_pos hping]
    refine Or.inl ⟨rfl, fun packet h => Or.inl ⟨(Option.some.inj h).symm, ?_⟩⟩
    rw [not_or, not_not, not_not] at hfrag
    exact ⟨htype, not_not.mp hvhl, hfrag, not_not.mp hdest, not_not.mp hip, hping⟩
  · rw [if_neg hping]
    exact Or.inl ⟨rfl, fun _ h => by cases h⟩

/-- **A connection's turn.** -/
theorem sends_uipPeriodic (fs : Fs) (hu : u.Sized) (i : Fin 2) (b : Buf) :
    Sends { u with iss := add32 u.iss 1 } i (u.conns i).ripaddr (u.conns i).lport (u.conns i).rport
      (uipPeriodic fs u i b) := by
  have hc := hu.conns i
  have hkeep : ∀ state timer nrtx,
      ({ u.conns i with tcpState := state, timer := timer, nrtx := nrtx } : Conn).Sized := fun _ _ _ =>
    ⟨hc.ripaddr, hc.lport, hc.rport, hc.rcvNxt, hc.sndNxt, hc.len, hc.mss, hc.initialmss⟩
  have hstay : Sends { u with iss := add32 u.iss 1 } i (u.conns i).ripaddr (u.conns i).lport
      (u.conns i).rport { stack := { u with iss := add32 u.iss 1 } } :=
    .of_conns (Function.update_eq_self i u.conns).symm rfl hc fun _ h => by cases h
  rw [uipPeriodic]
  dsimp only
  by_cases hwait : (u.conns i).tcpState = .timeWait ∨ (u.conns i).tcpState = .finWait2
  · rw [if_pos hwait]
    split
    · exact sends_drop (hkeep .closed ((u.conns i).timer + 1) _) _
    · exact sends_drop (hkeep _ ((u.conns i).timer + 1) _) _
  rw [if_neg hwait]
  by_cases hclosed : (u.conns i).tcpState = .closed
  · rw [if_pos hclosed]
    exact hstay
  rw [if_neg hclosed]
  by_cases hlen : (u.conns i).len ≠ 0
  · rw [if_pos hlen]
    by_cases hfired : decide ((u.conns i).timer = 0) = true
    · rw [if_pos hfired]
      have hagain := hkeep (u.conns i).tcpState
        (rtoInit <<< (if 4 < (u.conns i).nrtx then 4 else (u.conns i).nrtx)) ((u.conns i).nrtx + 1)
      split
      · exact (sends_sendNodata (hkeep .closed ((u.conns i).timer - 1) _) _ _).of_app rfl rfl
      split
      · exact sends_sendNodata hagain _ _
      split
      · exact (sends_apprexmit hagain _ _).of_app rfl rfl
      · exact sends_sendNodata hagain _ _
    · rw [if_neg hfired]
      exact sends_drop (hkeep _ ((u.conns i).timer - 1) _) _
  rw [if_neg hlen]
  split
  · exact sends_appsend hc _
  · exact hstay

end Step

/-! ### What is read -/

/-- A segment that uIP on the other side accepts, with its fields and its payload. -/
structure Buf.Carries (b : Buf) (mac dest : EthAddr) (src dst sport dport seqno ackno wnd : ℕ)
    (flags : UInt8) (payload : List UInt8) : Prop where
  ethDest : bytesAt b 0 6 = dest
  ethSrc : b.ethSrc = mac
  proper : Proper dst b
  srcipaddr : b.srcipaddr = src
  srcport : b.srcport = sport
  destport : b.destport = dport
  seqno : b.seqno = seqno
  ackno : b.ackno = ackno
  wnd : b.wnd = wnd
  flags : b.flags = flags
  payload : bytesAt b (34 + b.hdrLen) b.segLen = payload

/-- The answer to the ping `request`. -/
structure Buf.Replies (b : Buf) (mac dest : EthAddr) (src dst : ℕ) (request : Buf) : Prop where
  ethDest : bytesAt b 0 6 = dest
  ethSrc : b.ethSrc = mac
  ethType : b.ethType = 0x0800
  vhl : b.vhl = 0x45
  whole : b 20 &&& 0x3f = 0 ∧ b 21 = 0
  ipLen : b.ipLen = request.ipLen
  ipchksum : uipIpchksum b = 0xffff
  proto : b.proto = 1
  srcipaddr : b.srcipaddr = src
  destipaddr : b.destipaddr = dst
  icmp : ∀ k, 34 ≤ k → k < llhLen + request.ipLen → b k = request.echoReply.buf k

/-- What goes with a packet besides its own numbers. -/
structure Context where
  lport : ℕ
  rport : ℕ
  wnd : ℕ
  /-- how many bytes are outstanding -/
  len : ℕ
  /-- the frame that is answered -/
  request : Buf
  /-- the memory that the page lies in -/
  mem : Buf

/-- The payload of a packet: what is outstanding, from the page on.  Where the page ends before,
what is behind it in memory is sent. -/
def Context.payload (ctx : Context) (flags : UInt8) (data : List UInt8) : List UInt8 :=
  if flags = tcpAck ||| tcpPsh then
    data ++ bytesAt ctx.mem data.length (ctx.len - data.length)
  else []

/-- What another station reads in a frame: an ARP request for its address it answers, of a
reply it learns. -/
def Frame.Read (mac : EthAddr) (hostaddr : ℕ) (ctx : Context) (b : Buf) : Frame → Prop
  | .ip dest target (.tcp flags seqno ackno data) =>
    b.Carries mac dest hostaddr target ctx.lport ctx.rport seqno ackno ctx.wnd flags
      (ctx.payload flags data)
  | .ip dest target .echoReply =>
    28 ≤ ctx.request.ipLen → b.Replies mac dest hostaddr target ctx.request
  | .arpRequest target => b.ethType = 0x0806 ∧ arpinReply target b 42 = [.arpReply mac hostaddr]
  | .arpReply dest target =>
    bytesAt b 0 6 = dest ∧ b.ethType = 0x0806 ∧ arpinLearns target b 42 = some (hostaddr, mac)

section Reading

variable {b b' appdata : Buf} {x : Rx} {i j k n off len hostaddr target : ℕ} {mac dest : EthAddr}
  {a : Arp} {o : Outgoing}

theorem bytesAt_congr (h : ∀ k < n, b' (off + k) = b (off + k)) :
    bytesAt b' off n = bytesAt b off n :=
  List.map_congr_left fun k hk => h k (List.mem_range.mp hk)

theorem Buf.putAddr_of_ne (h : j < i ∨ i + 6 ≤ j) : b.putAddr i mac j = b j :=
  if_neg (by omega)

theorem bytesAt_putAddr (hmac : mac.length = 6) : bytesAt (b.putAddr i mac) i 6 = mac := by
  refine List.ext_getElem (by simp [hmac]) fun k hk hk' => ?_
  have hlt : k < 6 := by omega
  have hget : (bytesAt (b.putAddr i mac) i 6)[k] = b.putAddr i mac (i + k) := by
    simp only [bytesAt, List.getElem_map, List.getElem_range]
  refine hget.trans ?_
  rw [Buf.putAddr, if_pos ⟨Nat.le_add_right .., by omega⟩, Nat.add_sub_cancel_left]
  exact List.getD_eq_getElem _ _ hk'

/-- The bytes of a frame that was sent. -/
theorem buf_of_sent (hx : netSendHttpd b appdata len <+: x.frame) (hi : i < len) :
    x.buf i = if i < 54 then b i else appdata (i - 54) := by
  have hlen : (netSendHttpd b appdata len).length = len := by
    rw [netSendHttpd, List.length_map, List.length_range]
  have hframe : i < x.frame.length := by
    have := hx.length_le
    omega
  rw [Rx.buf, List.getD_eq_getElem _ _ hframe, ← hx.getElem (by omega)]
  simp only [netSendHttpd, List.getElem_map, List.getElem_range]
  rfl

theorem tcpTotal_data (h : ∀ k < u16 (b.ipLen - 40), appdata k = b'.behind k) :
    tcpTotal b b'.behind = tcpTotal b appdata := by
  rw [tcpTotal, tcpTotal, bytesAt_congr fun k hk => ?_]
  rw [Nat.zero_add]
  exact (h k hk).symm

/-- The Ethernet header leaves the rest as it is. -/
theorem ethOut_of_le (h : 14 ≤ i) : b.ethOut mac dest i = b i := by
  rw [Buf.ethOut, Buf.put16_of_ne (by omega), Buf.putAddr_of_ne (by omega),
    Buf.putAddr_of_ne (by omega)]

theorem ethOut_dest (hdest : dest.length = 6) : bytesAt (b.ethOut mac dest) 0 6 = dest := by
  have hsame : bytesAt (b.ethOut mac dest) 0 6 = bytesAt (b.putAddr 0 dest) 0 6 := by
    refine bytesAt_congr fun k hk => ?_
    rw [Buf.ethOut, Buf.put16_of_ne (by omega), Buf.putAddr_of_ne (by omega)]
  rw [hsame, bytesAt_putAddr hdest]

theorem ethOut_src (hmac : mac.length = 6) : (b.ethOut mac dest).ethSrc = mac := by
  have hsame : bytesAt (b.ethOut mac dest) 6 6 = bytesAt ((b.putAddr 0 dest).putAddr 6 mac) 6 6 := by
    refine bytesAt_congr fun k hk => ?_
    rw [Buf.ethOut, Buf.put16_of_ne (by omega)]
  rw [Buf.ethSrc, hsame, bytesAt_putAddr hmac]

theorem ethOut_type : (b.ethOut mac dest).ethType = 0x0800 := by
  rw [Buf.ethType, Buf.ethOut, be16_put16_self (by decide)]

/-- What a packet has behind its header. -/
def Outgoing.Payload (o : Outgoing) (payload : List UInt8) : Prop :=
  20 ≤ o.buf.hdrLen ∧ 20 + o.buf.hdrLen + payload.length = o.len ∧
    ∀ k < payload.length, o.appdata (o.buf.hdrLen - 20 + k) = payload.getD k 0

/-- A packet without data. -/
theorem Outgoing.payload_nil (hhdr : 20 ≤ o.buf.hdrLen) (hlen : 20 + o.buf.hdrLen = o.len) :
    o.Payload [] :=
  ⟨hhdr, hlen, fun _ h => absurd h (Nat.not_lt_zero _)⟩

/-- **A segment arrives** with its fields and its payload. -/
theorem Outgoing.Segment.carries {src dst sport dport seqno ackno wnd : ℕ} {flags : UInt8}
    {payload : List UInt8} (ho : o.Segment src dst sport dport seqno ackno wnd flags)
    (hmac : mac.length = 6) (hdest : dest.length = 6) (hpayload : o.Payload payload)
    (hx : netSendHttpd (o.buf.ethOut mac dest) o.appdata (o.len + llhLen) <+: x.frame) :
    x.buf.Carries mac dest src dst sport dport seqno ackno wnd flags payload := by
  obtain ⟨hhdrLen, htotal, hbytes⟩ := hpayload
  have hlen : 40 ≤ o.len := by omega
  have hhead : ∀ i < 54, x.buf i = o.buf.ethOut mac dest i := fun i hi => by
    rw [buf_of_sent hx (by rw [llhLen]; omega), if_pos hi]
  have hbody : ∀ i, 14 ≤ i → i < 54 → x.buf i = o.buf i := fun i hi hi' => by
    rw [hhead i hi', ethOut_of_le hi]
  have hdata : ∀ k, k < o.len - 40 → x.buf.behind k = o.appdata k := fun k hk => by
    rw [Buf.behind, buf_of_sent hx (by rw [llhLen]; omega), if_neg (by rw [llhLen]; omega)]
    exact congrArg o.appdata (by rw [llhLen]; omega)
  have hword : ∀ i, 14 ≤ i → i < 53 → be16 x.buf i = be16 o.buf i := fun i hi hi' =>
    be16_congr (hbody i hi (by omega)) (hbody (i + 1) (by omega) (by omega))
  have hdword : ∀ i, 14 ≤ i → i < 51 → be32 x.buf i = be32 o.buf i := fun i hi hi' =>
    be32_congr fun k hk => hbody (i + k) (by omega) (by omega)
  have hipLen : x.buf.ipLen = o.len := (hword 16 (by omega) (by omega)).trans ho.ipLen
  have hlen16 : o.len < 2 ^ 16 := by
    rw [← ho.ipLen]
    exact be16_lt _ _
  have hipsum : uipIpchksum x.buf = uipIpchksum o.buf := by
    rw [uipIpchksum, uipIpchksum, bytesAt_congr fun k hk => hbody (llhLen + k) (by rw [llhLen]; omega)
      (by rw [llhLen]; omega)]
  have htcpsum : uipTcpchksum x.buf = 0xffff := by
    have hsame : tcpTotal x.buf x.buf.behind = tcpTotal o.buf o.appdata := by
      rw [tcpTotal_data fun k hk => (hdata k ?_).symm, tcpTotal_congr fun j hj =>
        hbody j (by omega) (by omega)]
      rw [hipLen, u16] at hk
      omega
    rw [uipTcpchksum_eq, hsame, ho.tcpchksum]
  refine ⟨?_, ?_, ⟨?_, ?_, ?_, ?_, hipsum.trans ho.ipchksum, ?_, htcpsum⟩, ?_, ?_, ?_, ?_, ?_, ?_, ?_, ?_⟩
  · rw [bytesAt_congr fun k hk => hhead (0 + k) (by omega), ethOut_dest hdest]
  · rw [Buf.ethSrc, bytesAt_congr fun k hk => hhead (6 + k) (by omega)]
    exact ethOut_src hmac
  · rw [Buf.ethType, be16_congr (hhead 12 (by omega)) (hhead 13 (by omega))]
    exact ethOut_type
  · exact (hbody 14 (by omega) (by omega)).trans ho.vhl
  · rw [hbody 20 (by omega) (by omega), hbody 21 (by omega) (by omega), ho.whole.1, ho.whole.2]
    exact ⟨by decide, rfl⟩
  · exact (hdword 30 (by omega) (by omega)).trans ho.destipaddr
  · exact (hbody 23 (by omega) (by omega)).trans ho.proto
  · exact (hdword 26 (by omega) (by omega)).trans ho.srcipaddr
  · exact (hword 34 (by omega) (by omega)).trans ho.srcport
  · exact (hword 36 (by omega) (by omega)).trans ho.destport
  · exact (hdword 38 (by omega) (by omega)).trans ho.seqno
  · exact (hdword 42 (by omega) (by omega)).trans ho.ackno
  · exact (hword 48 (by omega) (by omega)).trans ho.wnd
  · exact (hbody 47 (by omega) (by omega)).trans ho.flags
  · have hhdr : x.buf.hdrLen = o.buf.hdrLen := by
      rw [Buf.hdrLen, Buf.hdrLen, Buf.tcpoffset, Buf.tcpoffset, hbody 46 (by omega) (by omega)]
    have hseg : x.buf.segLen = payload.length := by
      rw [Buf.segLen, hhdr, hipLen, u16]
      omega
    rw [hhdr, hseg]
    refine List.ext_getElem (length_bytesAt ..) fun k hk hk' => ?_
    have hdatum := (hdata (o.buf.hdrLen - 20 + k) (by omega)).trans (hbytes k hk')
    rw [List.getD_eq_getElem _ _ hk'] at hdatum
    rw [← hdatum, Buf.behind]
    simp only [bytesAt, List.getElem_map, List.getElem_range]
    exact congrArg x.buf (by rw [llhLen]; omega)

/-- The answer to a ping differs in the type, the checksum and the addresses. -/
theorem echoReply_of_ne (h : j < 26 ∨ j = 35 ∨ 38 ≤ j) : b.echoReply.buf j = b j := by
  show (((b.put 34 0).putWord 36 _).put32 30 _).put32 26 _ j = b j
  rw [Buf.put32_of_ne (by omega), Buf.put32_of_ne (by omega), Buf.putWord_of_ne (by omega),
    Buf.put_of_ne (by omega)]

theorem echoReply_srcipaddr (b : Buf) : b.echoReply.buf.srcipaddr = b.destipaddr :=
  be32_put32_self (show b.destipaddr < 2 ^ 32 from be32_lt b 30)

theorem echoReply_destipaddr (b : Buf) : b.echoReply.buf.destipaddr = b.srcipaddr := by
  show be32 ((((b.put 34 0).putWord 36 _).put32 30 b.srcipaddr).put32 26 _) 30 = b.srcipaddr
  rw [be32_put32 (by omega), be32_put32_self (show b.srcipaddr < 2 ^ 32 from be32_lt b 26)]

/-- The checksum of the IP header is still right: the addresses have changed places. -/
theorem echoReply_ipchksum (b : Buf) : uipIpchksum b.echoReply.buf = uipIpchksum b := by
  have hsame : ∀ i, i < 25 → be16 b.echoReply.buf i = be16 b i := fun i hi =>
    be16_congr (echoReply_of_ne (by omega)) (echoReply_of_ne (by omega))
  have hhigh : ∀ {v : ℕ}, v < 2 ^ 32 → v / 2 ^ 16 < 2 ^ 16 := by omega
  have hsrc := echoReply_srcipaddr b
  have hdst := echoReply_destipaddr b
  rw [Buf.srcipaddr, Buf.destipaddr, be32, be32] at hsrc hdst
  have h26 := be16_lt b.echoReply.buf 28
  have h28 := be16_lt b 32
  have h30 := be16_lt b.echoReply.buf 32
  have h32 := be16_lt b 28
  rw [uipIpchksum_eq, uipIpchksum_eq, wordSum_header, wordSum_header]
  simp (disch := omega) only [hsame, Nat.reduceAdd] at hsrc hdst ⊢
  refine congrArg _ ?_
  omega

/-- **The answer to a ping arrives.** -/
theorem replies_of_pings (hping : Pings hostaddr b) (hlen : 28 ≤ b.ipLen) (hmac : mac.length = 6)
    (hdest : dest.length = 6)
    (hx : netSendHttpd (b.echoReply.buf.ethOut mac dest) b.echoReply.appdata
      (b.echoReply.len + llhLen) <+: x.frame) :
    x.buf.Replies mac dest hostaddr b.srcipaddr b := by
  obtain ⟨-, hvhl, hwhole, hhost, hipsum, hproto, -⟩ := hping
  have hread : ∀ i, i < llhLen + b.ipLen → x.buf i = b.echoReply.buf.ethOut mac dest i := by
    intro i hi
    rw [buf_of_sent hx (by rw [Nat.add_comm]; exact hi)]
    by_cases h54 : i < 54
    · rw [if_pos h54]
    · rw [if_neg h54, ethOut_of_le (by omega), echoReply_of_ne (by omega)]
      exact congrArg b (by rw [llhLen]; omega)
  have hbody : ∀ i, 14 ≤ i → i < 42 → x.buf i = b.echoReply.buf i := fun i hi hi' => by
    rw [hread i (by rw [llhLen]; omega), ethOut_of_le hi]
  have hdword : ∀ i, 14 ≤ i → i < 39 → be32 x.buf i = be32 b.echoReply.buf i := fun i hi hi' =>
    be32_congr fun k hk => hbody (i + k) (by omega) (by omega)
  refine ⟨?_, ?_, ?_, ?_, ?_, ?_, ?_, ?_, ?_, ?_, ?_⟩
  · rw [bytesAt_congr fun k hk => hread (0 + k) (by rw [llhLen]; omega), ethOut_dest hdest]
  · rw [Buf.ethSrc, bytesAt_congr fun k hk => hread (6 + k) (by rw [llhLen]; omega)]
    exact ethOut_src hmac
  · rw [Buf.ethType, be16_congr (hread 12 (by rw [llhLen]; omega)) (hread 13 (by rw [llhLen]; omega))]
    exact ethOut_type
  · exact ((hbody 14 (by omega) (by omega)).trans (echoReply_of_ne (by omega))).trans hvhl
  · rw [hbody 20 (by omega) (by omega), hbody 21 (by omega) (by omega), echoReply_of_ne (by omega),
      echoReply_of_ne (by omega)]
    exact hwhole
  · exact (be16_congr (hbody 16 (by omega) (by omega)) (hbody 17 (by omega) (by omega))).trans
      (be16_congr (echoReply_of_ne (by omega)) (echoReply_of_ne (by omega)))
  · rw [uipIpchksum, bytesAt_congr fun k hk => hbody (llhLen + k) (by rw [llhLen]; omega)
      (by rw [llhLen]; omega)]
    exact (echoReply_ipchksum b).trans hipsum
  · exact ((hbody 23 (by omega) (by omega)).trans (echoReply_of_ne (by omega))).trans hproto
  · exact ((hdword 26 (by omega) (by omega)).trans (echoReply_srcipaddr b)).trans hhost
  · exact (hdword 30 (by omega) (by omega)).trans (echoReply_destipaddr b)
  · intro k hk hlt
    rw [hread k hlt, ethOut_of_le (by omega)]

/-- **An ARP request arrives.** -/
theorem read_arpRequest (hhost : hostaddr < 2 ^ 32) (htarget : target < 2 ^ 32)
    (hmac : mac.length = 6) {ctx : Context}
    (hx : netSendHttpd (b.arpRequest mac hostaddr target) appdata 42 <+: x.frame) :
    (Frame.arpRequest target).Read mac hostaddr ctx x.buf := by
  have hread : ∀ i < 42, x.buf i = b.arpRequest mac hostaddr target i := fun i hi => by
    rw [buf_of_sent hx hi, if_pos (by omega)]
  have htype : x.buf.ethType = 0x0806 := by
    rw [Buf.ethType, be16_congr (hread 12 (by omega)) (hread 13 (by omega)), Buf.arpRequest,
      be16_put16_self (by decide)]
  have hopcode : x.buf.opcode = 1 := by
    rw [Buf.opcode, be16_congr (hread 20 (by omega)) (hread 21 (by omega)), Buf.arpRequest]
    -- past the fields that are written behind it
    rw [be16_put16 (by omega), be16_put (by omega), be16_put (by omega), be16_put16 (by omega),
      be16_put16 (by omega), be16_put16_self (by decide)]
  have hdip : x.buf.dipaddr = target := by
    rw [Buf.dipaddr, be32_congr fun k hk => hread (38 + k) (by omega), Buf.arpRequest]
    rw [be32_put16 (by omega), be32_put (by omega), be32_put (by omega), be32_put16 (by omega),
      be32_put16 (by omega), be32_put16 (by omega), be32_put32 (by omega), be32_put32_self htarget]
  have hsip : x.buf.sipaddr = hostaddr := by
    rw [Buf.sipaddr, be32_congr fun k hk => hread (28 + k) (by omega), Buf.arpRequest]
    -- the host's own address is the last field but the type
    rw [be32_put16 (by omega), be32_put (by omega), be32_put (by omega), be32_put16 (by omega),
      be32_put16 (by omega), be32_put16 (by omega), be32_put32_self hhost]
  have hshw : x.buf.shwaddr = mac := by
    have hsame : bytesAt x.buf 22 6 = bytesAt ((((b.putAddr 0 (List.replicate 6 0xff)).putAddr 32
        (List.replicate 6 0)).putAddr 6 mac).putAddr 22 mac) 22 6 := by
      refine bytesAt_congr fun k hk => ?_
      rw [hread (22 + k) (by omega), Buf.arpRequest]
      rw [Buf.put16_of_ne (by omega), Buf.put_of_ne (by omega), Buf.put_of_ne (by omega),
        Buf.put16_of_ne (by omega), Buf.put16_of_ne (by omega), Buf.put16_of_ne (by omega),
        Buf.put32_of_ne (by omega), Buf.put32_of_ne (by omega)]
    rw [Buf.shwaddr, hsame, bytesAt_putAddr hmac]
  refine ⟨htype, ?_⟩
  rw [arpinReply, if_pos ⟨Nat.le_refl _, hopcode, hdip⟩, hshw, hsip]

/-- **An ARP reply arrives.** -/
theorem read_arpReply (hhost : hostaddr < 2 ^ 32) (hmac : mac.length = 6) {ctx : Context}
    (hx : netSendHttpd (b.arpReply mac hostaddr) appdata 42 <+: x.frame) :
    (Frame.arpReply b.shwaddr b.sipaddr).Read mac hostaddr ctx x.buf := by
  have hread : ∀ i < 42, x.buf i = b.arpReply mac hostaddr i := fun i hi => by
    rw [buf_of_sent hx hi, if_pos (by omega)]
  have htype : x.buf.ethType = 0x0806 := by
    rw [Buf.ethType, be16_congr (hread 12 (by omega)) (hread 13 (by omega)), Buf.arpReply,
      be16_put16_self (by decide)]
  have haddr : ∀ (b' : Buf) {off : ℕ} {addr : EthAddr}, addr.length = 6 →
      (∀ k < 6, b.arpReply mac hostaddr (off + k) = (b'.putAddr off addr) (off + k)) → off ≤ 22 →
      bytesAt x.buf off 6 = addr := by
    intro b' off addr haddr hsame hoff
    rw [bytesAt_congr fun k hk => (hread (off + k) (by omega)).trans (hsame k hk),
      bytesAt_putAddr haddr]
  have hopcode : x.buf.opcode = 2 := by
    have hsame : ∀ i, i = 20 ∨ i = 21 → x.buf i = (b.put16 20 2) i := by
      intro i hi
      rw [hread i (by omega), Buf.arpReply]
      rw [Buf.put16_of_ne (by omega), Buf.put32_of_ne (by omega), Buf.put32_of_ne (by omega),
        Buf.putAddr_of_ne (by omega), Buf.putAddr_of_ne (by omega), Buf.putAddr_of_ne (by omega),
        Buf.putAddr_of_ne (by omega)]
    rw [Buf.opcode, be16_congr (hsame 20 (by omega)) (hsame 21 (by omega)),
      be16_put16_self (by decide)]
  have hdip : x.buf.dipaddr = b.sipaddr := by
    rw [Buf.dipaddr, be32_congr fun k hk => hread (38 + k) (by omega), Buf.arpReply]
    rw [be32_put16 (by omega), be32_put32 (by omega),
      be32_put32_self (show b.sipaddr < 2 ^ 32 from be32_lt b 28)]
  have hsip : x.buf.sipaddr = hostaddr := by
    rw [Buf.sipaddr, be32_congr fun k hk => hread (28 + k) (by omega), Buf.arpReply]
    rw [be32_put16 (by omega), be32_put32_self hhost]
  have hdest : bytesAt x.buf 0 6 = b.shwaddr := by
    refine haddr ((((b.put16 20 2).putAddr 32 b.shwaddr).putAddr 22 mac).putAddr 6 mac)
      (by rw [Buf.shwaddr, length_bytesAt]) (fun k hk => ?_) (by omega)
    rw [Buf.arpReply]
    rw [Buf.put16_of_ne (by omega), Buf.put32_of_ne (by omega), Buf.put32_of_ne (by omega)]
  have hshw : x.buf.shwaddr = mac := by
    refine haddr ((b.put16 20 2).putAddr 32 b.shwaddr) hmac (fun k hk => ?_) (by omega)
    rw [Buf.arpReply]
    rw [Buf.put16_of_ne (by omega), Buf.put32_of_ne (by omega), Buf.put32_of_ne (by omega),
      Buf.putAddr_of_ne (by omega), Buf.putAddr_of_ne (by omega)]
  refine ⟨hdest, htype, ?_⟩
  rw [arpinLearns, if_pos ⟨Nat.le_refl _, hopcode, hdip⟩, hsip, hshw]

/-- A packet goes out as it is, or asks for the next hop. -/
theorem read_send {packet : Packet} {ctx : Context}
    (htarget : o.buf.destipaddr = target) (hlt : target < 2 ^ 32) (hhost : hostaddr < 2 ^ 32)
    (hmac : mac.length = 6) (ha : ∀ i, (a.table i).ethaddr.length = 6)
    (hip : ∀ dest : EthAddr, dest.length = 6 →
      netSendHttpd (o.buf.ethOut mac dest) o.appdata (o.len + llhLen) <+: x.frame →
        (Frame.ip dest target packet).Read mac hostaddr ctx x.buf)
    (hx : o.send a mac hostaddr <+: x.frame) :
    (a.out hostaddr target packet).Read mac hostaddr ctx x.buf := by
  have hhop : nextHop hostaddr target < 2 ^ 32 := by
    rw [nextHop]
    split
    · exact hlt
    · decide
  rw [Outgoing.send, htarget] at hx
  rw [Arp.out]
  rcases hlookup : a.lookup (nextHop hostaddr target) with _ | dest
  · rw [hlookup] at hx
    exact read_arpRequest hhost hhop hmac hx
  · rw [hlookup] at hx
    have hdest : dest.length = 6 := by
      obtain ⟨i, -, hmac⟩ := Option.map_eq_some_iff.mp hlookup
      rw [← hmac]
      exact ha i
    exact hip dest hdest hx

end Reading

/-! ### Every run -/

/-- The run of `uip_process` for an input. -/
def Input.result (fs : Fs) (u : Stack) : Input → Result
  | .frame x => netReceiveHttpd fs u x
  | .periodic i b => uipPeriodic fs u i b

/-- The memory from `uip_buf` on. -/
def Input.buf : Input → Buf
  | .frame x => x.buf
  | .periodic _ b => b

/-- The connection that sends. -/
def Input.sender (u : Stack) : Input → Option (Fin 2)
  | .frame x => answeredBy u x.buf
  | .periodic i _ => some i

/-! Where the answer goes: an address, the port of the server and the other port. -/

def Input.ripaddr (u : Stack) : Input → ℕ
  | .frame x => x.buf.srcipaddr
  | .periodic i _ => (u.conns i).ripaddr

def Input.lport (u : Stack) : Input → ℕ
  | .frame x => x.buf.destport
  | .periodic i _ => (u.conns i).lport

def Input.rport (u : Stack) : Input → ℕ
  | .frame x => x.buf.srcport
  | .periodic i _ => (u.conns i).rport

/-- What goes with the packet of a step.  A reset keeps the window of the segment it answers;
all else announces `UIP_RECEIVE_WINDOW`. -/
def Input.context (fs : Fs) (u : Stack) (mem : Buf) (input : Input) : Context where
  lport := input.lport u
  rport := input.rport u
  wnd := if (input.sender u).isSome then 3000 else input.buf.wnd
  len := (input.sender u).elim 0 fun i => ((input.result fs u).stack.conns i).len
  request := input.buf
  mem := mem

/-- What is sent in a step is read as what it is, whatever the cache and the memory hold. -/
def Delivers (fs : Fs) (mac : EthAddr) (u : Stack) (input : Input) : Prop :=
  u.hung = false → ∀ packet ∈ (input.result fs u).sent, ∀ (a : Arp) (ipid : ℕ) (mem : Buf) (x : Rx),
    (∀ i, (a.table i).ethaddr.length = 6) →
      (packet.outgoing u.hostaddr (input.result fs u).stack.conns (input.sender u) input.buf mem
        ipid).send a mac u.hostaddr <+: x.frame →
      (a.out u.hostaddr (input.ripaddr u) packet).Read mac u.hostaddr (input.context fs u mem) x.buf

section Runs

variable {fs : Fs} {u v : Stack} {i : Fin 2} {b mem : Buf} {r : Result} {mac : EthAddr} {a : Arp}
  {x : Rx} {ip lp rp ipid hostaddr : ℕ} {packet : Packet}

/-- The page, with what is behind it in memory. -/
theorem getD_payload (data : List UInt8) (mem : Buf) {len k : ℕ} (hk : k < len) :
    (data ++ bytesAt mem data.length (len - data.length)).getD k 0 = data.getD k (mem k) := by
  by_cases hin : k < data.length
  · rw [List.getD_append _ _ _ _ hin, List.getD_eq_getElem _ _ hin, List.getD_eq_getElem _ _ hin]
  · have hle := Nat.not_lt.mp hin
    rw [List.getD_append_right _ _ _ _ hle, List.getD_eq_default _ _ hle,
      List.getD_eq_getElem _ _ (by rw [length_bytesAt]; omega)]
    simp only [bytesAt, List.getElem_map, List.getElem_range]
    exact congrArg mem (by omega)

/-- The packets of a connection. -/
theorem read_of_sends (ctx : Context) (h : Sends u i ip ctx.lport ctx.rport r)
    (hwnd : ctx.wnd = 3000) (hlen : ctx.len = (r.stack.conns i).len) (hsent : packet ∈ r.sent)
    (hhost : hostaddr < 2 ^ 32) (hmac : mac.length = 6) (ha : ∀ i, (a.table i).ethaddr.length = 6)
    (hx : (packet.outgoing hostaddr r.stack.conns (some i) b ctx.mem ipid).send a mac hostaddr <+:
      x.frame) :
    (a.out hostaddr ip packet).Read mac hostaddr ctx x.buf := by
  obtain ⟨flags, data, rfl, hdata⟩ := h.sent packet hsent
  have hc := h.sized
  have hlport := h.lport
  have hrport := h.rport
  rw [← h.ripaddr]
  rw [Packet.outgoing] at hx
  generalize r.stack.conns i = c at hc hdata hx hlport hrport hlen ⊢
  have hfinish : ∀ o : Outgoing,
      o.Segment hostaddr c.ripaddr c.lport c.rport c.sndNxt c.rcvNxt 3000 flags →
      o.Payload (ctx.payload flags data) → o.send a mac hostaddr <+: x.frame →
      (a.out hostaddr c.ripaddr (.tcp flags c.sndNxt c.rcvNxt data)).Read mac hostaddr ctx
        x.buf := by
    intro o ho hpayload hx
    rw [hlport, hrport, ← hwnd] at ho
    exact read_send ho.destipaddr hc.ripaddr hhost hmac ha
      (fun dest hdest hx => ho.carries hmac hdest hpayload hx) hx
  have hmax : 40 + c.len < 2 ^ 16 := by
    have hmss : tcpMss = 1446 := rfl
    have := hc.len
    omega
  by_cases hsyn : flags = tcpSyn ||| tcpAck
  · rw [if_pos hsyn] at hx
    have hnil : ctx.payload flags data = [] := by
      rw [Context.payload, hsyn, if_neg (by decide)]
    obtain ⟨b', hb'⟩ : ∃ b', b' = ((((b.put 47 (tcpSyn ||| tcpAck)).put 54 2).put 55 4).put16 56
      tcpMss).put 46 0x60 := ⟨_, rfl⟩
    have hflags : b'.flags = flags := by
      show b' 47 = flags
      rw [hb', Buf.put_of_ne (by omega), Buf.put16_of_ne (by omega), Buf.put_of_ne (by omega),
        Buf.put_of_ne (by omega), Buf.put_self, hsyn]
    have hsend : b.tcpSendSynack hostaddr c ipid = b'.tcpSend b'.behind hostaddr c 44 ipid := by
      rw [hb']
      rfl
    obtain ⟨hsegment, hsame⟩ := tcpSend_spec b' b'.behind ipid (show 44 < 2 ^ 16 by decide) hhost hc
    have hhdr : (b'.tcpSend b'.behind hostaddr c 44 ipid).buf.hdrLen = 24 := by
      rw [Buf.hdrLen, Buf.tcpoffset, hsame 46 (Or.inl rfl), hb', Buf.put_self]
      rfl
    rw [hflags] at hsegment
    rw [hsend] at hx
    refine hfinish _ hsegment ?_ hx
    rw [hnil]
    exact Outgoing.payload_nil (by omega) (by rw [hhdr]; rfl)
  rw [if_neg hsyn] at hx
  have hflags : ((b.put 47 flags).put 46 0x50).flags = flags := by
    show ((b.put 47 flags).put 46 0x50) 47 = flags
    rw [Buf.put_of_ne (by omega), Buf.put_self]
  have hhdr : ∀ {appdata : Buf} {len : ℕ}, len < 2 ^ 16 →
      (((b.put 47 flags).put 46 0x50).tcpSend appdata hostaddr c len ipid).buf.hdrLen = 20 := by
    intro appdata len hlt
    rw [Buf.hdrLen, Buf.tcpoffset, (tcpSend_spec _ appdata ipid hlt hhost hc).2 46 (Or.inl rfl),
      Buf.put_self]
    rfl
  by_cases hpsh : flags = tcpAck ||| tcpPsh
  · rw [if_pos hpsh] at hx
    obtain ⟨hsegment, -⟩ := tcpSend_spec ((b.put 47 flags).put 46 0x50)
      (fun k => data.getD k (ctx.mem k)) ipid hmax hhost hc
    rw [hflags] at hsegment
    refine hfinish _ hsegment ?_ hx
    have hle : data.length ≤ c.len := by
      by_cases hne : data = []
      · rw [hne]
        exact Nat.zero_le _
      · exact (hdata hne).2
    have hlength : (ctx.payload flags data).length = c.len := by
      rw [Context.payload, if_pos hpsh, List.length_append, length_bytesAt, hlen]
      omega
    refine ⟨Nat.le_of_eq (hhdr hmax).symm, ?_, fun k hk => ?_⟩
    · rw [hhdr hmax, hlength]
      rfl
    · rw [hhdr hmax, Nat.sub_self, Nat.zero_add, Context.payload, if_pos hpsh,
        getD_payload data ctx.mem (by omega)]
      rfl
  · rw [if_neg hpsh] at hx
    have hnil : ctx.payload flags data = [] := if_neg hpsh
    obtain ⟨hsegment, -⟩ := tcpSend_spec ((b.put 47 flags).put 46 0x50) b.behind ipid
      (show 40 < 2 ^ 16 by decide) hhost hc
    rw [hflags] at hsegment
    refine hfinish _ hsegment ?_ hx
    rw [hnil]
    exact Outgoing.payload_nil (Nat.le_of_eq (hhdr (by decide)).symm) (by rw [hhdr (by decide)]; rfl)

/-- **One step**: the numbers still fit their fields, and the frames are read. -/
theorem delivers_step (fs : Fs) (hu : u.Sized) (hhost : u.hostaddr < 2 ^ 32) (hmac : mac.length = 6)
    (input : Input) : (stackStep fs u input).1.Sized ∧ Delivers fs mac u input := by
  cases input with
  | frame x =>
    have hcase : (x.buf.ethType = 0x0800 → False) ∧ (netReceiveHttpd fs u x).stack = u ∧
        (netReceiveHttpd fs u x).sent = none ∨
        ∃ len, x.buf.ethType = 0x0800 ∧
          (netReceiveHttpd fs u x).stack = (uipInput fs u x.buf len x.malloc).stack ∧
          (netReceiveHttpd fs u x).sent = (uipInput fs u x.buf len x.malloc).sent := by
      rw [netReceiveHttpd]
      by_cases htype : x.buf.ethType = 0x0800
      · rw [if_pos htype]
        exact Or.inr ⟨_, htype, rfl, rfl⟩
      · rw [if_neg htype]
        exact Or.inl ⟨htype, rfl, rfl⟩
    have hstack : (stackStep fs u (.frame x)).1 = u ∨
        (stackStep fs u (.frame x)).1 = (netReceiveHttpd fs u x).stack := by
      rw [stackStep]
      split
      · exact Or.inl rfl
      · exact Or.inr rfl
    rcases hcase with ⟨-, hsame, hnone⟩ | ⟨len, htype, hsame, hsentEq⟩
    · refine ⟨?_, fun _ packet hsent => ?_⟩
      · rcases hstack with h | h
        · rw [h]
          exact hu
        · rw [h, hsame]
          exact hu
      · have hsent' : packet ∈ (netReceiveHttpd fs u x).sent := hsent
        rw [hnone] at hsent'
        cases hsent'
    · rcases uipInput_spec fs hu x.buf len x.malloc htype with ⟨hstay, hsent⟩ | ⟨i, hi, hsends⟩
      · refine ⟨?_, fun _ packet hpacket a ipid mem y ha hy => ?_⟩
        · rcases hstack with h | h
          · rw [h]
            exact hu
          · rw [h, hsame, hstay]
            exact hu
        · have hpacket' : packet ∈ (uipInput fs u x.buf len x.malloc).sent := hsentEq ▸ hpacket
          rcases hsent packet hpacket' with ⟨rfl, hping⟩ | ⟨rfl, hanswered, hproto, hdest⟩
          · refine read_send (o := x.buf.echoReply) (echoReply_destipaddr x.buf) (be32_lt x.buf 26)
              hhost hmac ha (fun dest hdest hz hlen => ?_) hy
            exact replies_of_pings hping hlen hmac hdest hz
          · obtain ⟨hsegment, hoff⟩ := sendReset_spec x.buf ipid hproto
            rw [hdest] at hsegment
            have hhdr : (x.buf.sendReset ipid).buf.hdrLen = 20 := by
              rw [Buf.hdrLen, Buf.tcpoffset, hoff]
              rfl
            have hy' : (x.buf.sendReset ipid).send a mac u.hostaddr <+: y.frame := by
              have hsender : (Input.frame x).sender u = none := hanswered
              rw [hsender] at hy
              exact hy
            have hwnd : ((Input.frame x).context fs u mem).wnd = x.buf.wnd := by
              rw [Input.context, show (Input.frame x).sender u = none from hanswered]
              rfl
            rw [← hwnd] at hsegment
            exact read_send hsegment.destipaddr (be32_lt x.buf 26) hhost hmac ha
              (fun dest hdest hz => hsegment.carries hmac hdest
                (Outgoing.payload_nil (Nat.le_of_eq hhdr.symm) (by rw [hhdr]; rfl)) hz) hy'
      · refine ⟨?_, fun _ packet hpacket a ipid mem y ha hy => ?_⟩
        · rcases hstack with h | h
          · rw [h]
            exact hu
          · rw [h, hsame]
            refine hsends.stack_sized hu ?_
            rw [hsends.iss]
            exact hu.iss
        · have hpacket' : packet ∈ (uipInput fs u x.buf len x.malloc).sent := hsentEq ▸ hpacket
          have hsender : (Input.frame x).sender u = some i := hi
          have hconns : ((Input.frame x).result fs u).stack.conns =
              (uipInput fs u x.buf len x.malloc).stack.conns := congrArg Stack.conns hsame
          have hctx : ((Input.frame x).context fs u mem).wnd = 3000 ∧
              ((Input.frame x).context fs u mem).len =
                ((uipInput fs u x.buf len x.malloc).stack.conns i).len := by
            rw [Input.context, hsender, hconns]
            exact ⟨rfl, rfl⟩
          rw [hsender, hconns] at hy
          exact read_of_sends ((Input.frame x).context fs u mem) hsends hctx.1 hctx.2
            hpacket' hhost hmac ha hy
  | periodic i b =>
    have hsends := sends_uipPeriodic fs hu i b
    have hiss : (uipPeriodic fs u i b).stack.iss < 2 ^ 32 := by
      rw [hsends.iss]
      exact add32_lt _ _
    refine ⟨?_, fun _ packet hpacket a ipid mem y ha hy => ?_⟩
    · rw [stackStep]
      split
      · exact hu
      · exact hsends.stack_sized ⟨hu.conns, add32_lt _ _⟩ hiss
    · exact read_of_sends ((Input.periodic i b).context fs u mem) hsends rfl rfl hpacket
        hhost hmac ha hy

end Runs

/-- **Every frame says what was meant.**  In every run, whatever comes in, the packets of the
server reach the next hop with their fields and payload and with checksums that are right; where
the next hop is not known, the frame that is sent instead asks for it. -/
theorem delivered_run (fs : Fs) (hostaddr : ℕ) (hhost : hostaddr < 2 ^ 32) (ram : Httpd.Ram)
    (mac : EthAddr) (hmac : mac.length = 6) (inputs : List Input) :
    Run.AllSteps (stackStep fs) (Delivers fs mac) (start hostaddr ram) inputs := by
  have hstart : (start hostaddr ram).Sized := by
    refine ⟨fun i => ?_, show 0 < 2 ^ 32 by decide⟩
    have hzero : (start hostaddr ram).conns i = {} := rfl
    rw [hzero]
    exact ⟨by decide, by decide, by decide, by decide, by decide, by decide, by decide, by decide⟩
  refine Run.allSteps_of_invariant (fun u => u.Sized ∧ u.hostaddr = hostaddr) (P := fun _ _ => True)
    (fun u input hu _ => ⟨?_, (stackStep_hostaddr fs u input).trans hu.2⟩) (fun u input hu _ => ?_)
    ⟨hstart, rfl⟩ (Run.allSteps_of_forall fun _ _ => trivial)
  · exact (delivers_step fs hu.1 (hu.2 ▸ hhost) hmac input).1
  · exact (delivers_step fs hu.1 (hu.2 ▸ hhost) hmac input).2

theorem delivered_run_reordered :
    Run.AllSteps (stackStep default) (Delivers default [2, 0, 0, 0, 0, 1])
      (start 0xc0a80101 fun _ => 0) reordered :=
  delivered_run default 0xc0a80101 (by decide) (fun _ => 0) [2, 0, 0, 0, 0, 1] rfl reordered

end Uip
