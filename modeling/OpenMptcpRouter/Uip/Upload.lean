/-
An upload over the network.

The browser is one peer with one connection, and its stream is an upload request.  Its
segments may be lost, repeated and reordered, cut anew, and mixed with frames that are not
its own or damaged; the timers go off as they like.

* `Goes`, `goes_found`, `goes_periodic` — what a connection that can still receive after a
  step has done in it;
* `Phase`, `phase_step` — the server is idle, receiving or done, by the bytes handed over;
* `Uploading` — the invariant of the session, `uploading_step`;
* `upload_exact` — when the server is ready to flash, the RAM holds exactly the data.

The network can spoil the upload in one place.  The browser's acknowledgement of the SYN may
get lost, and then its first segment of data completes the handshake: `httpd_appcall` looks
at `uip_connected ()` first and the data are lost, though uIP has acknowledged them
(`handshake_data_lost`).  `Uploads` leaves this case out.
-/
import OpenMptcpRouter.Httpd.Phases
import OpenMptcpRouter.Uip.Stream

namespace Uip

open Httpd (Fs Event Flags UploadRequest Ram)

/-! ### Connections that go on -/

/-- The call has been answered without closing, and all that is outstanding then is what the
application has sent. -/
structure Answered (fs : Fs) (s : Httpd.State) (c c' : Conn) (e : Event) : Prop where
  lport : e.lport = c.lport
  reply : (Httpd.httpdAppcall fs s e).2.reply = .none
  len : (Httpd.httpdAppcall fs s e).2.send = none → c'.len = 0

/-- A step after which the connection can receive. -/
inductive Goes (fs : Fs) (s : Httpd.State) (c c' : Conn) : Option Event → Prop
  | still (hstate : c'.tcpState = c.tcpState) (hlen : c'.len = c.len) : Goes fs s c c' none
  | connected (e : Event) (newdata : Bool) (hsyn : c.tcpState = .synRcvd)
      (hstate : c'.tcpState = .established)
      (hflags : e.flags = { connected := true, newdata := newdata })
      (hanswer : Answered fs s c c' e) : Goes fs s c c' (some e)
  | data (e : Event) (newdata acked : Bool) (hest : c.tcpState = .established)
      (hstate : c'.tcpState = .established)
      (hflags : e.flags = { newdata := newdata, ackdata := acked })
      (hacked : acked = true → c.len ≠ 0) (hne : newdata = true → e.seg ≠ [])
      (hanswer : Answered fs s c c' e) : Goes fs s c c' (some e)
  | poll (e : Event) (hest : c.tcpState = .established) (hstate : c'.tcpState = .established)
      (hflags : e.flags = { poll := true }) (hanswer : Answered fs s c c' e) :
      Goes fs s c c' (some e)
  | rexmit (e : Event) (hest : c.tcpState = .established) (hstate : c'.tcpState = .established)
      (hflags : e.flags = { rexmit := true }) (hlport : e.lport = c.lport)
      (hlen : c.len ≠ 0 ∧ c'.len = c.len) : Goes fs s c c' (some e)

section Conns

variable {fs : Fs} {u : Stack} {i : Fin 2} {c : Conn} {b : Buf} {d : AppData} {flags : Flags}
  {malloc acked : Bool}

theorem Conn.not_live_of {c : Conn} (state : TcpState)
    (h : state ≠ .synRcvd ∧ state ≠ .established) (hstate : c.tcpState = state) : ¬ c.Live := by
  subst hstate
  exact fun hl => hl.elim h.1 h.2

/-- A connection that can receive behind `appsend` has been answered. -/
theorem appsend_live (habort : flags.abort = false) (hclose : flags.close = false)
    (hlive : ((appsend u i c (appcall fs u i c b d flags malloc)).stack.conns i).Live) :
    let c' := (appsend u i c (appcall fs u i c b d flags malloc)).stack.conns i
    c'.tcpState = c.tcpState ∧ Answered fs u.app c c' (appEvent b d i c flags malloc) := by
  intro c'
  have hc' : c' = (appsend u i c (appcall fs u i c b d flags malloc)).stack.conns i := rfl
  have hflags : (appcall fs u i c b d flags malloc).flags =
      flagsAfter flags (Httpd.httpdAppcall fs u.app (appEvent b d i c flags malloc)).2.reply := rfl
  rcases hreply : (Httpd.httpdAppcall fs u.app (appEvent b d i c flags malloc)).2.reply with _ | _ | _
  all_goals rw [hreply, flagsAfter] at hflags
  · rw [appsend_eq (by rw [hflags, habort]) (by rw [hflags, hclose]), apprexmit_conn] at hc'
    rw [hc']
    refine ⟨rfl, rfl, hreply, fun hsend => ?_⟩
    have hslen : (appcall fs u i c b d flags malloc).slen = 0 := by
      rw [appcall]
      dsimp only
      rw [hsend]
      rfl
    exact if_pos hslen
  · rw [appsend_close (by rw [hflags]) (by rw [hflags]), Stack.setConn_self] at hlive
    exact absurd hlive (Conn.not_live_of .finWait1 (by decide) rfl)
  · rw [appsend_abort (by rw [hflags]), Stack.setConn_self] at hlive
    exact absurd hlive (Conn.not_live_of .closed (by decide) rfl)

theorem goes_established (hest : c.tcpState = .established) (hacked : acked = true → c.len ≠ 0)
    (hlen : c.len = (u.conns i).len) (hlport : c.lport = (u.conns i).lport)
    (hest' : (u.conns i).tcpState = .established)
    (hlive : ((established fs u i c b d acked malloc).stack.conns i).Live) :
    Goes fs u.app (u.conns i) ((established fs u i c b d acked malloc).stack.conns i)
      (establishedCall i c b d acked malloc) := by
  rw [establishedCall]
  rw [established] at hlive ⊢
  by_cases hfin : b.has tcpFin = true
  · -- a `FIN` ends the connection, or is ignored while data are outstanding
    rw [if_pos hfin] at hlive ⊢
    rw [if_pos hfin]
    by_cases hzero : c.len = 0
    · rw [if_neg (not_not.mpr hzero), sendNodata, Stack.setConn_self] at hlive
      exact absurd hlive (Conn.not_live_of .lastAck (by decide) rfl)
    · rw [if_pos hzero, if_pos hzero, drop, Stack.setConn_self]
      exact .still (hest.trans hest'.symm) hlen
  rw [if_neg hfin] at hlive ⊢
  rw [if_neg hfin]
  generalize skipUrgent b d = s at hlive ⊢
  obtain ⟨urglen, d⟩ := s
  dsimp only at hlive ⊢
  by_cases hcall : (decide (0 < d.len) || acked) = true
  · rw [if_pos hcall] at hlive ⊢
    rw [if_pos hcall]
    obtain ⟨hstate, hanswer⟩ := appsend_live rfl rfl hlive
    refine .data _ (decide (0 < d.len)) acked hest' (hstate.trans hest) rfl ?_ ?_ ?_
    · rw [← hlen]
      exact hacked
    · intro hnew hnil
      rw [← List.length_eq_zero_iff] at hnil
      have hlen' : d.len = 0 := (length_bytesAt b d.off d.len).symm.trans hnil
      rw [hlen'] at hnew
      exact absurd hnew (by decide)
    · exact ⟨hanswer.lport.trans hlport, hanswer.reply, hanswer.len⟩
  · rw [if_neg hcall, if_neg hcall, drop, Stack.setConn_self]
    exact .still (hest.trans hest'.symm) hlen

/-- **A segment of a connection that can receive before and after it.** -/
theorem goes_found (fs : Fs) (ipLen : ℕ) (malloc : Bool) (hlive : (u.conns i).Live)
    (hlive' : ((found fs u i b ipLen malloc).stack.conns i).Live) :
    Goes fs u.app (u.conns i) ((found fs u i b ipLen malloc).stack.conns i)
        (foundCall u i b ipLen malloc) ∧
      ((u.conns i).tcpState = .synRcvd → (foundCall u i b ipLen malloc).isSome = true →
        (ackReceived (u.conns i) b).2 = true) := by
  rw [foundCall]
  rw [found] at hlive' ⊢
  dsimp only at hlive' ⊢
  by_cases hrst : b.has tcpRst = true
  · rw [if_pos hrst, drop, Stack.setConn_self] at hlive'
    exact absurd hlive' (Conn.not_live_of .closed (by decide) rfl)
  rw [if_neg hrst] at hlive' ⊢
  rw [if_neg hrst]
  by_cases hseq : 0 < u16 (ipLen - b.hdrLen - 20) ∧ b.seqno ≠ (u.conns i).rcvNxt
  · rw [if_pos hseq, if_pos hseq, sendNodata, Stack.setConn_self]
    exact ⟨.still rfl rfl, fun _ h => absurd h (by simp)⟩
  rw [if_neg hseq] at hlive' ⊢
  rw [if_neg hseq]
  obtain ⟨hkeeps, hlen, -⟩ := ackReceived_keeps (u.conns i) b
  have hacked : (ackReceived (u.conns i) b).2 = true → (ackReceived (u.conns i) b).1.len ≠ 0 := by
    intro hack
    rw [hlen]
    rw [ackReceived] at hack
    split at hack
    · exact And.left (And.right ‹_›)
    · exact absurd hack (by simp)
  generalize ackReceived (u.conns i) b = ca at hkeeps hlen hacked hlive' ⊢
  obtain ⟨c, acked⟩ := ca
  dsimp only at hkeeps hlen hacked hlive' ⊢
  rcases hlive with hsyn | hest
  · have hs : c.tcpState = .synRcvd := hkeeps.tcpState.trans hsyn
    rw [hs] at hlive' ⊢
    dsimp only at hlive' ⊢
    rw [synRcvdCall]
    rw [synRcvd] at hlive' ⊢
    by_cases hack : acked = true
    · rw [if_pos hack] at hlive' ⊢
      rw [if_pos hack]
      obtain ⟨hstate, hanswer⟩ := appsend_live rfl rfl hlive'
      refine ⟨.connected _ _ hsyn hstate rfl ?_, fun _ _ => hack⟩
      exact ⟨hanswer.lport.trans hkeeps.lport, hanswer.reply, hanswer.len⟩
    · rw [if_neg hack, if_neg hack, drop, Stack.setConn_self]
      exact ⟨.still hkeeps.tcpState hlen, fun _ h => absurd h (by simp)⟩
  · have hs : c.tcpState = .established := hkeeps.tcpState.trans hest
    rw [hs] at hlive' ⊢
    dsimp only at hlive' ⊢
    refine ⟨goes_established hs hacked hlen hkeeps.lport hest hlive', fun h => ?_⟩
    rw [hest] at h
    exact absurd h (by decide)

/-- **The timer of a connection that can receive before and after it.** -/
theorem goes_periodic (fs : Fs) (b : Buf) (hlive : (u.conns i).Live)
    (hlive' : ((uipPeriodic fs u i b).stack.conns i).Live) :
    Goes fs u.app (u.conns i) ((uipPeriodic fs u i b).stack.conns i) (periodicCall u i b) := by
  have hwait : ¬ ((u.conns i).tcpState = .timeWait ∨ (u.conns i).tcpState = .finWait2) := by
    rcases hlive with h | h <;> simp [h]
  have hopen : ¬ (u.conns i).tcpState = .closed := by
    rcases hlive with h | h <;> simp [h]
  rw [periodicCall]
  rw [uipPeriodic] at hlive' ⊢
  dsimp only at hlive' ⊢
  rw [if_neg hwait, if_neg hopen] at hlive' ⊢
  rw [if_neg hwait, if_neg hopen]
  by_cases hzero : (u.conns i).len = 0
  · rw [if_neg (not_not.mpr hzero)] at hlive' ⊢
    rw [if_neg (not_not.mpr hzero)]
    by_cases hest : (u.conns i).tcpState = .established
    · rw [if_pos hest] at hlive' ⊢
      rw [if_pos hest]
      obtain ⟨hstate, hanswer⟩ := appsend_live rfl rfl hlive'
      exact .poll _ hest (hstate.trans hest) rfl hanswer
    · rw [if_neg hest, if_neg hest]
      exact .still rfl rfl
  rw [if_pos hzero] at hlive' ⊢
  rw [if_pos hzero]
  by_cases hfired : (u.conns i).timer = 0
  swap
  · rw [if_neg (by simpa using hfired), if_neg hfired, drop, Stack.setConn_self]
    exact .still rfl rfl
  rw [if_pos (by simpa using hfired)] at hlive' ⊢
  rw [if_pos hfired]
  by_cases hgiven : (u.conns i).nrtx = 8 ∨ (u.conns i).tcpState = .synRcvd ∧ (u.conns i).nrtx = 3
  · rw [if_pos hgiven, sendNodata, Stack.setConn_self] at hlive'
    exact absurd hlive' (Conn.not_live_of .closed (by decide) rfl)
  rw [if_neg hgiven] at hlive' ⊢
  rw [if_neg hgiven]
  rcases hlive with hsyn | hest
  · have hest : ¬ (u.conns i).tcpState = .established := by
      rw [hsyn]
      decide
    rw [if_pos hsyn, if_neg hest, sendNodata, Stack.setConn_self]
    exact .still rfl rfl
  · have hsyn : ¬ (u.conns i).tcpState = .synRcvd := by
      rw [hest]
      decide
    rw [if_neg hsyn, if_pos hest, if_pos hest, apprexmit_conn]
    exact .rexmit _ hest hest rfl rfl ⟨hzero, rfl⟩

/-- A connection that cannot receive any more calls the application to say that it ends. -/
theorem ended_foundCall (ipLen : ℕ) (malloc : Bool) (hlive : ¬ (u.conns i).Live) :
    ∀ e ∈ foundCall u i b ipLen malloc,
      e.flags.close = true ∨ e.flags.abort = true ∨ e.flags.timedout = true := by
  intro e he
  rw [foundCall] at he
  dsimp only at he
  by_cases hrst : b.has tcpRst = true
  · rw [if_pos hrst, Option.mem_some_iff] at he
    rw [← he]
    exact Or.inr (Or.inl rfl)
  rw [if_neg hrst] at he
  split at he
  · exact absurd he (by simp)
  obtain ⟨hkeeps, -, -⟩ := ackReceived_keeps (u.conns i) b
  rw [Conn.Live, ← hkeeps.tcpState] at hlive
  generalize ackReceived (u.conns i) b = ca at hlive he
  obtain ⟨c, acked⟩ := ca
  dsimp only at hlive he
  have hfin : ∀ c' d, e ∈ finCall i c' b d malloc → e.flags.close = true := by
    intro c' d h
    rw [finCall] at h
    split at h
    · rw [Option.mem_some_iff] at h
      rw [← h]
      rfl
    · exact absurd h (by simp)
  left
  rcases hs : c.tcpState with _ | _ | _ | _ | _ | _ | _ | _
  all_goals rw [hs] at he hlive
  all_goals dsimp only at he
  case synRcvd => exact absurd (Or.inl rfl) hlive
  case established => exact absurd (Or.inr rfl) hlive
  case lastAck =>
    split at he
    · rw [Option.mem_some_iff] at he
      rw [← he]
      rfl
    · exact absurd he (by simp)
  case finWait1 => exact hfin _ _ he
  case finWait2 => exact hfin _ _ he
  case closed => exact absurd he (by simp)
  case timeWait => exact absurd he (by simp)
  case closing => exact absurd he (by simp)

theorem ended_periodicCall (hlive : ¬ (u.conns i).Live) :
    ∀ e ∈ periodicCall u i b,
      e.flags.close = true ∨ e.flags.abort = true ∨ e.flags.timedout = true := by
  intro e he
  rw [Conn.Live, not_or] at hlive
  rw [periodicCall] at he
  dsimp only at he
  split at he
  · exact absurd he (by simp)
  split at he
  · exact absurd he (by simp)
  split at he
  · split at he
    · split at he
      · rw [Option.mem_some_iff] at he
        rw [← he]
        exact Or.inr (Or.inr rfl)
      · rw [if_neg hlive.2] at he
        exact absurd he (by simp)
    · exact absurd he (by simp)
  · rw [if_neg hlive.2] at he
    exact absurd he (by simp)

end Conns

/-! ### The session -/

/-- What may come in while the peer uploads `R` on connection `i`. -/
structure UploadFrame (R : UploadRequest) (p : Peer) (c : Conn) (b : Buf) : Prop where
  srcipaddr : b.srcipaddr = c.ripaddr
  srcport : b.srcport = c.rport
  destport : b.destport = 80
  sends : p.Sends b
  /-- no SYN comes in once the connection has been closed -/
  syn : b.flags &&& tcpCtl = tcpSyn → c.tcpState ≠ .closed
  /-- the segment that completes the handshake has no data -/
  handshake : c.tcpState = .synRcvd → (ackReceived c b).2 = true → b.segLen = 0
  /-- the first segment of the stream has the whole header block -/
  head : b.seqno ≡ p.iss + 1 [MOD 2 ^ 32] → 0 < b.segLen →
    R.head <+: bytesAt b (40 + llhLen) b.segLen

theorem uploadFrame_iff {R : UploadRequest} {p : Peer} {c : Conn} {b : Buf} :
    UploadFrame R p c b ↔ (b.srcipaddr = c.ripaddr ∧ b.srcport = c.rport ∧ b.destport = 80) ∧
      p.Sends b ∧ (b.flags &&& tcpCtl = tcpSyn → c.tcpState ≠ .closed) ∧
      (c.tcpState = .synRcvd → (ackReceived c b).2 = true → b.segLen = 0) ∧
      (b.seqno ≡ p.iss + 1 [MOD 2 ^ 32] → 0 < b.segLen →
        R.head <+: bytesAt b (40 + llhLen) b.segLen) := by
  constructor
  · intro h
    exact ⟨⟨h.srcipaddr, h.srcport, h.destport⟩, h.sends, h.syn, h.handshake, h.head⟩
  · rintro ⟨⟨hip, hsrc, hdest⟩, hsends, hsyn, hshake, hhead⟩
    exact ⟨hip, hsrc, hdest, hsends, hsyn, hshake, hhead⟩

instance (R : UploadRequest) (p : Peer) (c : Conn) (b : Buf) : Decidable (UploadFrame R p c b) :=
  decidable_of_iff _ uploadFrame_iff.symm

/-- Frames for the server whose checksums are right are those of the upload. -/
def Uploads (R : UploadRequest) (p : Peer) (i : Fin 2) (t : Session) : Input → Prop
  | .frame x => Proper t.stack.hostaddr x.buf → UploadFrame R p (t.stack.conns i) x.buf
  | .periodic _ _ => True

instance (R : UploadRequest) (p : Peer) (i : Fin 2) (t : Session) :
    DecidablePred (Uploads R p i t)
  | .frame x => inferInstanceAs (Decidable (Proper t.stack.hostaddr x.buf →
      UploadFrame R p (t.stack.conns i) x.buf))
  | .periodic _ _ => isTrue trivial

/-- The SYN has come in on connection `i`, and nothing else. -/
structure Opened (p : Peer) (i : Fin 2) (ram : Ram) (t : Session) : Prop where
  others : ∀ j, j ≠ i → (t.stack.conns j).tcpState = .closed
  tcpState : (t.stack.conns i).tcpState = .synRcvd
  lport : (t.stack.conns i).lport = 80
  rcvNxt : (t.stack.conns i).rcvNxt ≡ p.iss + 1 [MOD 2 ^ 32]
  received : ∀ j, t.received j = []
  app : t.stack.app = Httpd.initial ram

/-- The upload of `R` on connection `i`, from its SYN on. -/
structure Uploading (R : UploadRequest) (p : Peer) (i : Fin 2) (ram : Ram) (t : Session) :
    Prop where
  others : ∀ j, j ≠ i → (t.stack.conns j).tcpState = .closed
  lport : (t.stack.conns i).lport = 80
  holds : ∀ j, Holds (fun _ _ => p) t j
  armed : Httpd.Armed R t.stack.app
  phase : (t.stack.conns i).Live → Httpd.Phase R ram (t.received i) t.stack.app
  syn : (t.stack.conns i).tcpState = .synRcvd → t.stack.app.state = .none
  quiet : (t.stack.conns i).tcpState = .established →
    (t.stack.conns i).len = 0 ∨ t.stack.app.state = .fileRequest

section Sessions

variable {fs : Fs} {R : UploadRequest} {p : Peer} {i : Fin 2} {ram : Ram} {t : Session}
  {call : Option Event} {skipped : ℕ}

theorem Opened.uploading (h : Opened p i ram t) : Uploading R p i ram t where
  others := h.others
  lport := h.lport
  holds j := by
    rw [Holds, h.received]
    refine ⟨List.nil_prefix, fun hlive => ?_⟩
    by_cases hj : j = i
    · rw [hj]
      exact ⟨h.lport, h.rcvNxt⟩
    · exact absurd hlive (Conn.not_live_of .closed (by decide) (h.others j hj))
  armed hset := by
    rw [h.app] at hset
    exact absurd hset (by simp [Httpd.initial])
  phase _ := by
    rw [h.received, h.app]
    exact ⟨rfl, Or.inl ⟨rfl, rfl, Httpd.wf_initial ram, rfl, rfl, rfl, rfl⟩⟩
  syn _ := by
    rw [h.app]
    rfl
  quiet hest := by
    rw [h.tcpState] at hest
    exact absurd hest (by decide)

/-- A run of `uip_process` for the connection of the upload. -/
theorem uploading_turn (fs : Fs) {r : Result} (hstream : p.stream = R.bytes) (h : Uploading R p i ram t)
    (hturn : Turn fs t.stack i r call skipped) {received : Fin 2 → List UInt8}
    (hreceived : (t.stack.conns i).Live → received i = t.received i ++ newData call)
    (hholds : ∀ j, Holds (fun _ _ => p) { stack := r.stack, received := received } j)
    (hgoes : (t.stack.conns i).Live → (r.stack.conns i).Live →
      Goes fs t.stack.app (t.stack.conns i) (r.stack.conns i) call)
    (hended : ¬ (t.stack.conns i).Live →
      ∀ e ∈ call, e.flags.close = true ∨ e.flags.abort = true ∨ e.flags.timedout = true)
    (hsyn : (t.stack.conns i).tcpState = .synRcvd → (r.stack.conns i).Live → newData call = [])
    (hhead : t.received i = [] → newData call ≠ [] → R.head <+: newData call) :
    Uploading R p i ram { stack := r.stack, received := received } := by
  have happ := hturn.app
  have hlport : (r.stack.conns i).lport = 80 := hturn.moves.lport.trans h.lport
  have harmed : Httpd.Armed R r.stack.app := by
    rw [happ]
    cases call with
    | none => exact h.armed
    | some e =>
      by_cases hlive : (t.stack.conns i).Live
      · exact Httpd.armed_of_phase fs (h.phase hlive) e
      · exact Httpd.armed_of_ended fs h.armed (hended hlive e rfl)
  by_cases hlive' : (r.stack.conns i).Live
  swap
  · exact
      { others := fun j hj => (congrArg Conn.tcpState (hturn.others j hj)).trans (h.others j hj)
        lport := hlport
        holds := hholds
        armed := harmed
        phase := fun hl => absurd hl hlive'
        syn := fun hs => absurd (Or.inl hs) hlive'
        quiet := fun hs => absurd (Or.inr hs) hlive' }
  have hlive := (hturn.moves.live hlive').1
  have hphase := h.phase hlive
  have hrec := hreceived hlive
  have hstay : Httpd.Phase R ram (received i) r.stack.app ∧
      ((r.stack.conns i).tcpState = .synRcvd → r.stack.app.state = .none) ∧
      ((r.stack.conns i).tcpState = .established →
        (r.stack.conns i).len = 0 ∨ r.stack.app.state = .fileRequest) := by
    have hgo := hgoes hlive hlive'
    have hpiece := (hholds i).1
    dsimp only at hpiece
    rw [hrec, hstream] at hpiece
    rw [hrec, happ]
    cases hgo with
    | still hstate hlen =>
      rw [newData, List.append_nil, hstate, hlen]
      exact ⟨hphase, h.syn, h.quiet⟩
    | connected e newdata hwas hstate hflags hanswer =>
      have hport : e.lport = 80 := hanswer.lport.trans h.lport
      obtain ⟨hphase', -, hsend⟩ := Httpd.phase_connected fs hphase (h.syn hwas) hport hflags
      rw [hsyn hwas hlive', List.append_nil]
      refine ⟨hphase', fun hs => ?_, fun _ => Or.inl (hanswer.len hsend)⟩
      rw [hstate] at hs
      exact absurd hs (by decide)
    | data e newdata acked hest hstate hflags hacked hne hanswer =>
      have hport : e.lport = 80 := hanswer.lport.trans h.lport
      obtain ⟨hphase', hsend⟩ := Httpd.phase_data fs hphase hport hflags
        (fun hack => (h.quiet hest).resolve_left (hacked hack)) hne hpiece hhead hanswer.reply
      refine ⟨hphase', fun hs => ?_, fun _ => hsend.imp_left hanswer.len⟩
      rw [hstate] at hs
      exact absurd hs (by decide)
    | poll e hest hstate hflags hanswer =>
      have hport : e.lport = 80 := hanswer.lport.trans h.lport
      have hnil : newData (some e) = [] := by
        rw [newData, hflags]
        rfl
      obtain ⟨hphase', -, hsend⟩ := Httpd.phase_poll fs hphase hport hflags hanswer.reply
      rw [hnil, List.append_nil]
      refine ⟨hphase', fun hs => ?_, fun _ => Or.inl (hanswer.len hsend)⟩
      rw [hstate] at hs
      exact absurd hs (by decide)
    | rexmit e hest hstate hflags hlport hlen =>
      have hnil : newData (some e) = [] := by
        rw [newData, hflags]
        rfl
      -- something is outstanding only once the page has been sent
      obtain ⟨hphase', hstate'⟩ := Httpd.phase_rexmit fs hphase
        ((h.quiet hest).resolve_left hlen.1) (hlport.trans h.lport) hflags
      rw [hnil, List.append_nil]
      refine ⟨hphase', fun hs => ?_, fun _ => Or.inr hstate'⟩
      rw [hstate] at hs
      exact absurd hs (by decide)
  exact
    { others := fun j hj => (congrArg Conn.tcpState (hturn.others j hj)).trans (h.others j hj)
      lport := hlport
      holds := hholds
      armed := harmed
      phase := fun _ => hstay.1
      syn := hstay.2.1
      quiet := hstay.2.2 }

/-- The record of a connection that goes on receiving. -/
theorem received_of_live {v : Stack} (hconn : ∀ e ∈ call, e.conn = i)
    (hlive : (t.stack.conns i).Live) :
    (if ¬ (t.stack.conns i).Live ∧ (v.conns i).Live then []
      else t.received i ++ newDataOf i call) = t.received i ++ newData call := by
  rw [if_neg fun h => h.1 hlive]
  cases call with
  | none => rfl
  | some e => rw [newDataOf_self (hconn e rfl)]

/-- **One step of the session.** -/
theorem uploading_step (hstream : p.stream = R.bytes) (h : Uploading R p i ram t) (input : Input)
    (huploads : Uploads R p i t input) : Uploading R p i ram (t.step fs input).1 := by
  have honest : Honest (fun _ _ => p) t.stack.hostaddr input := by
    cases input with
    | frame x => exact fun hproper _ => (huploads hproper).sends
    | periodic j b => trivial
  have hholds : ∀ j, Holds (fun _ _ => p) (t.step fs input).1 j := holds_step h.holds input honest
  rw [Session.step] at hholds ⊢
  dsimp only at hholds ⊢
  have hcase := stepCase fs t.stack input
  generalize (stackStep fs t.stack input).1 = v, input.call t.stack = call at hcase hholds ⊢
  -- the other connection stays closed
  have hsame : ∀ j, j ≠ i → ¬ (t.stack.conns j).Live := fun j hj =>
    Conn.not_live_of .closed (by decide) (h.others j hj)
  cases hcase with
  | idle =>
    refine ⟨h.others, h.lport, hholds, h.armed, fun hlive => ?_, h.syn, h.quiet⟩
    dsimp only
    rw [if_neg fun hl => hl.1 hlive, newDataOf_none, List.append_nil]
    exact h.phase hlive
  | timer j b =>
    have hturn := uipPeriodic_turn fs t.stack j b
    by_cases hj : j = i
    · subst hj
      refine uploading_turn fs hstream h hturn (received_of_live hturn.conn) hholds
        (fun hl hl' => goes_periodic fs b hl hl') ended_periodicCall
        (fun _ _ => newData_periodicCall _ _ _) (fun _ hne => ?_)
      exact absurd (newData_periodicCall _ _ _) hne
    · have hclosed := h.others j hj
      have hcall : periodicCall t.stack j b = none := by
        rw [periodicCall]
        dsimp only
        rw [if_neg (by simp [hclosed]), if_pos hclosed]
      rw [uipPeriodic_closed hclosed, hcall] at hholds ⊢
      refine ⟨h.others, h.lport, hholds, h.armed, fun hlive => ?_, h.syn, h.quiet⟩
      dsimp only at hlive ⊢
      rw [if_neg fun hl => hl.1 hlive, newDataOf_none, List.append_nil]
      exact h.phase hlive
  | segment x j hproper hdemux =>
    have hframe := huploads hproper
    obtain ⟨hopen, -⟩ := demultiplex_spec hdemux
    have hj : j = i := by
      by_contra hne
      exact hopen (h.others j hne)
    subst hj
    obtain ⟨skipped, -, hturn⟩ := found_turn fs t.stack j x.buf x.buf.ipLen x.malloc
    have hnew := newData_foundCall t.stack j x.buf x.buf.ipLen x.malloc
    refine uploading_turn fs hstream h hturn (received_of_live hturn.conn) hholds
      (fun hl hl' => (goes_found fs _ _ hl hl').1) (ended_foundCall _ _) (fun hwas hl' => ?_)
      (fun hgot hne => ?_)
    · rcases hnew with hnil | ⟨hlive, -, hnext⟩
      · exact hnil
      · rcases hcall : foundCall t.stack j x.buf x.buf.ipLen x.malloc with _ | e
        · rfl
        have hacked := (goes_found fs _ _ hlive hl').2 hwas (by rw [hcall]; rfl)
        have hzero : u16 (x.buf.ipLen - x.buf.hdrLen - 20) = 0 := hframe.handshake hwas hacked
        rw [← hcall, (hnext hframe.sends.urgp).2, hzero]
        rfl
    · obtain ⟨hlive, -, hnext⟩ := hnew.resolve_left hne
      obtain ⟨hseq, hdata⟩ := hnext hframe.sends.urgp
      have hat := ((h.holds j).2 hlive).2
      rw [hgot, ← hseq] at hat
      rw [hdata] at hne ⊢
      refine hframe.head hat ?_
      rw [Buf.segLen]
      refine Nat.pos_of_ne_zero fun hzero => hne ?_
      rw [hzero]
      rfl
  | listen x hproper hdemux hsyn hport =>
    -- a SYN comes in only while there is the connection, and belongs to it
    have hframe := huploads hproper
    rw [demultiplex, List.find?_eq_none] at hdemux
    have hmatch := hdemux i (List.mem_finRange i)
    refine absurd ?_ hmatch
    simp only [decide_eq_true_eq]
    exact ⟨hframe.syn hsyn, hport.trans h.lport.symm, hframe.srcport, hframe.srcipaddr⟩

end Sessions

/-! ### The handshake -/

theorem synRcvd_acked (fs : Fs) (u : Stack) (i : Fin 2) {c : Conn} (b : Buf) (d : AppData)
    (malloc : Bool) (hport : c.lport = 80) :
    let r := synRcvd fs u i c b d true malloc
    (r.stack.conns i).tcpState = .established ∧ r.stack.app = Httpd.httpdStateReset u.app ∧
      (r.stack.conns i).rcvNxt = add32 c.rcvNxt d.len := by
  intro r
  have hr : r = synRcvd fs u i c b d true malloc := rfl
  -- `httpd_appcall` resets its state when it hears of the connection
  have hcall : Httpd.httpdAppcall fs u.app
      (appEvent b d i { c with tcpState := .established, len := 0, rcvNxt := add32 c.rcvNxt d.len }
        { connected := true, newdata := 0 < d.len } malloc) = (Httpd.httpdStateReset u.app, {}) := by
    simp [Httpd.httpdAppcall, appEvent, hport]
  rw [synRcvd, if_pos rfl] at hr
  dsimp only at hr
  rw [appcall_eq hcall, appsend_eq rfl rfl] at hr
  rw [hr, apprexmit_conn, apprexmit_app]
  exact ⟨rfl, rfl, rfl⟩

/-- Data of the segment that completes the handshake are acknowledged and lost: the server is
told about the connection, and starts over. -/
theorem handshake_data_lost (fs : Fs) {u : Stack} {i : Fin 2} {b : Buf} (ipLen : ℕ)
    (malloc : Bool) (hsyn : (u.conns i).tcpState = .synRcvd) (hport : (u.conns i).lport = 80)
    (hrst : b.has tcpRst = false) (hseq : b.seqno = (u.conns i).rcvNxt)
    (hacked : (ackReceived (u.conns i) b).2 = true) :
    let r := found fs u i b ipLen malloc
    (r.stack.conns i).tcpState = .established ∧ r.stack.app = Httpd.httpdStateReset u.app ∧
      (r.stack.conns i).rcvNxt =
        add32 (u.conns i).rcvNxt (u16 ((ipLen : ℤ) - b.hdrLen - 20)) := by
  intro r
  have hr : r = found fs u i b ipLen malloc := rfl
  obtain ⟨hkeeps, -, hnxt⟩ := ackReceived_keeps (u.conns i) b
  rw [found, if_neg (by rw [hrst]; exact Bool.false_ne_true)] at hr
  dsimp only at hr
  rw [if_neg fun h => h.2 hseq, hkeeps.tcpState, hsyn, hacked] at hr
  dsimp only at hr
  rw [hr, ← hnxt]
  exact synRcvd_acked fs u i b _ malloc (hkeeps.lport.trans hport)

/-! ### From the SYN on -/

/-- The SYN of the peer. -/
structure Peer.Opens (p : Peer) (hostaddr : ℕ) (b : Buf) : Prop where
  proper : Proper hostaddr b
  destport : b.destport = 80
  syn : b.flags &&& tcpCtl = tcpSyn
  seqno : b.seqno = p.iss % 2 ^ 32

theorem opened_start (fs : Fs) {p : Peer} {hostaddr : ℕ} {x : Rx} (h : p.Opens hostaddr x.buf)
    (ram : Ram) : Opened p 0 ram ((Session.start hostaddr ram).step fs (.frame x)).1 := by
  have hdemux : demultiplex (start hostaddr ram) x.buf = none := by
    rw [demultiplex, List.find?_eq_none]
    intro i _
    simp [start]
  have hstack : (stackStep fs (start hostaddr ram) (.frame x)).1 =
      (foundListen (start hostaddr ram) x.buf).stack := by
    have hproper : Proper (start hostaddr ram).hostaddr x.buf := h.proper
    unfold stackStep
    rw [if_neg (by simp [start])]
    dsimp only
    rw [netReceiveHttpd_proper fs hproper, tcpInput, if_neg (not_not.mpr hproper.2.2.2.2.2.2),
      hdemux]
    dsimp only
    rw [if_neg (not_not.mpr h.syn), if_pos h.destport]
  have hcall : Input.call (start hostaddr ram) (.frame x) = none := by
    rw [Input.call, hdemux]
    split <;> rfl
  have hfree : freeConn (start hostaddr ram).conns = some 0 := rfl
  rcases foundListen_stack (start hostaddr ram) x.buf with ⟨hnone, -⟩ |
    ⟨i, c, hsome, hconns, happ, -, hstate, -, -, hlport, hnxt, -⟩
  · rw [hfree] at hnone
    exact absurd hnone (by simp)
  obtain rfl : i = 0 := by
    rw [hfree, Option.some_inj] at hsome
    exact hsome.symm
  have hstart : (Session.start hostaddr ram).stack = start hostaddr ram := rfl
  refine ⟨fun j hj => ?_, ?_, ?_, ?_, fun j => ?_, ?_⟩
  all_goals rw [Session.step, hstart]
  all_goals dsimp only
  all_goals rw [hstack]
  · rw [hconns, Function.update_of_ne hj]
    rfl
  · rw [hconns, Function.update_self]
    exact hstate
  · rw [hconns, Function.update_self]
    exact hlport.trans h.destport
  · rw [hconns, Function.update_self, hnxt, h.seqno, add32, Nat.ModEq]
    omega
  · rw [hcall]
    split <;> rfl
  · exact happ

/-- The peer that uploads it. -/
def tinyPeer : Peer where
  iss := 0
  stream := Httpd.tinyUpload.bytes
  length_lt := by decide

/-- Its SYN, with an MSS of 1460. -/
def tinySyn : Rx where
  frame := (clientFrame 44 0xf778 0 0 tcpSyn 1017 [2, 4, 5, 0xb4]).set 46 0x60

/-- The end of the handshake and its two segments, the second one sent once too early, and
the acknowledgement of the page. -/
def tinyFrames : List Rx :=
  let first := Httpd.tinyUpload.bytes.take Httpd.tinyUpload.dataStart
  let second := Httpd.tinyUpload.bytes.drop Httpd.tinyUpload.dataStart
  [{ frame := clientFrame 40 0xf77c 1 1 tcpAck 7077 [] },
    { frame := clientFrame 50 0xf772 108 1 (tcpAck ||| tcpPsh) 26708 second, le := by decide +kernel },
    { frame := clientFrame 147 0xf711 1 1 (tcpAck ||| tcpPsh) 6561 first, le := by decide +kernel },
    { frame := clientFrame 50 0xf772 108 1 (tcpAck ||| tcpPsh) 26708 second, le := by decide +kernel },
    { frame := clientFrame 40 0xf77c 118 9 tcpAck 6952 [] }]

theorem tinySyn_opens : tinyPeer.Opens 0xc0a80101 tinySyn.buf :=
  ⟨by decide +kernel, by decide, by decide, by decide⟩

theorem tinyFrames_upload :
    Run.AllSteps (Session.step default) (Uploads Httpd.tinyUpload tinyPeer 0)
      ((Session.start 0xc0a80101 fun _ => 0).step default (.frame tinySyn)).1
      (tinyFrames.map .frame) := by
  decide +kernel

end Uip
