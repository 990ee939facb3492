/-
The receive path (`NetReceiveHttpd` in `net/net.c`) and its packet buffer.

A frame of up to 1518 bytes is copied to `uip_buf` without a look at its length, the
length of the segment is worked out from the IP length, the TCP data offset and the
urgent pointer alone, and the request line is read from the buffer whatever that length
is.  `Fits` says when all this stays inside the `UIP_BUFSIZE + 2` bytes of the buffer:

* `inBounds_appAccesses` — what the application does with a segment, a `GET`, a `POST` or
  a piece of an upload;
* `inBounds_iff_fits` — the accesses for one frame stay inside iff the frame fits;
* `receive_inBounds_iff` — the same for every run of the stack;
* `receive_overruns` — a frame of 1518 bytes, and an IP length beyond the frame.

What the memory held before the copy is part of the input: a short frame leaves old
bytes in the header, and a long segment reads past the frame.
-/
import OpenMptcpRouter.Uip.Process

namespace Uip

open Httpd (Fs Event Flags)

/-- A frame handed to `NetReceiveHttpd`, with the memory from `uip_buf` on before. -/
structure Rx where
  frame : List UInt8
  before : Buf := fun _ => 0
  malloc : Bool := true
  le : frame.length ≤ 1518 := by decide

/-- The memory after `memcpy (uip_buf, inpkt, len)`. -/
def Rx.buf (x : Rx) : Buf := fun i => x.frame.getD i (x.before i)

/-- `NetReceiveHttpd`. -/
def netReceiveHttpd (fs : Fs) (u : Stack) (x : Rx) : Result :=
  let copy := (0, x.frame.length)
  if x.buf.ethType = 0x0800 then
    let r := uipInput fs u x.buf (u16 (x.frame.length - llhLen)) x.malloc
    { r with accesses := copy :: r.accesses }
  else { stack := u, accesses := [copy] }

/-- What happens to the stack: a frame comes in, or connection `i` has its turn in
`HttpdHandler`, over memory `b`. -/
inductive Input
  | frame (x : Rx)
  | periodic (i : Fin 2) (b : Buf)

/-- One step of the stack, with its accesses to the packet buffer. -/
def stackStep (fs : Fs) (u : Stack) (input : Input) : Stack × List (ℕ × ℕ) :=
  if u.hung then (u, [])
  else
    match input with
    | .frame x => ((netReceiveHttpd fs u x).stack, (netReceiveHttpd fs u x).accesses)
    | .periodic i b => ((uipPeriodic fs u i b).stack, (uipPeriodic fs u i b).accesses)

/-- Every access lies inside `uip_buf`. -/
def InBounds (accesses : List (ℕ × ℕ)) : Prop := ∀ a ∈ accesses, a.1 + a.2 ≤ bufBytes

instance (accesses : List (ℕ × ℕ)) : Decidable (InBounds accesses) := by
  unfold InBounds; infer_instance

/-! ### The segments that reach the application -/

/-- The frame is a segment of the established connection `i`, in order and without
`RST` and `FIN`. -/
def Accepted (u : Stack) (b : Buf) (i : Fin 2) : Prop :=
  b.ethType = 0x0800 ∧ b.vhl = 0x45 ∧ (b 20 &&& 0x3f = 0 ∧ b 21 = 0) ∧
    b.destipaddr = u.hostaddr ∧ uipIpchksum b = 0xffff ∧ b.proto = 6 ∧ uipTcpchksum b = 0xffff ∧
    demultiplex u b = some i ∧ (u.conns i).tcpState = .established ∧ b.has tcpRst = false ∧
    b.has tcpFin = false ∧ (u16 (b.ipLen - b.hdrLen - 20) = 0 ∨ b.seqno = (u.conns i).rcvNxt)

instance (u : Stack) (b : Buf) (i : Fin 2) : Decidable (Accepted u b i) := by
  unfold Accepted; infer_instance

/-- The segment behind the TCP header. -/
def payload (b : Buf) : AppData := ⟨40 + llhLen, u16 (b.ipLen - b.hdrLen - 20), u16_lt _⟩

/-- The call an accepted frame leads to. -/
def handed (u : Stack) (x : Rx) (i : Fin 2) : Event :=
  let c := (ackReceived (u.conns i) x.buf).1
  let d := (skipUrgent x.buf (payload x.buf)).2
  let wnd := if c.initialmss < x.buf.wnd ∨ x.buf.wnd = 0 then c.initialmss else x.buf.wnd
  appEvent x.buf d i
    { c with
      rcvNxt := add32 (add32 c.rcvNxt (skipUrgent x.buf (payload x.buf)).1) d.len, mss := wnd }
    { newdata := 0 < d.len, ackdata := (ackReceived (u.conns i) x.buf).2 } x.malloc

/-- Offset of the segment handed over. -/
def handedOff (b : Buf) : ℕ := (skipUrgent b (payload b)).2.off

section Accesses

variable {fs : Fs} {u : Stack} {i : Fin 2} {c : Conn} {b : Buf} {d : AppData} {flags : Flags}
  {malloc acked : Bool}

@[simp] theorem drop_accesses (acc : List (ℕ × ℕ)) : (drop u i c acc).accesses = acc := rfl

@[simp] theorem sendNodata_accesses (fl : UInt8) (acc : List (ℕ × ℕ)) :
    (sendNodata u i c fl acc).accesses = acc := rfl

@[simp] theorem apprexmit_accesses (r : Called) (slen : ℕ) :
    (apprexmit u i c r slen).accesses = r.accesses := by
  rw [apprexmit]
  split
  · rfl
  split
  · rfl
  · rfl

@[simp] theorem appsend_accesses (r : Called) : (appsend u i c r).accesses = r.accesses := by
  rw [appsend]
  split
  · rfl
  split
  · rfl
  split
  · by_cases hlen : (if r.flags.ackdata then 0 else c.len) = 0
    · rw [if_pos hlen, apprexmit_accesses]
    · rw [if_neg hlen, apprexmit_accesses]
  · rw [apprexmit_accesses]

/-- Only new data past the connection events are looked at. -/
theorem appAccesses_eq_nil {s : Httpd.State} {e : Event} {off : ℕ}
    (h : ¬ (e.Plain ∧ e.flags.newdata = true)) : appAccesses s e off = [] := by
  have hreq : ¬ Httpd.TakesRequest s e := fun hr => h ⟨hr.1, hr.2.1⟩
  have hbody : ¬ Httpd.TakesBody s e := fun hb => h ⟨hb.1, hb.2.1⟩
  rw [appAccesses, if_neg hbody, if_neg hreq]

/-- Calls about the connection itself do not touch the segment. -/
theorem appcall_accesses_eq_nil
    (h : flags.close = true ∨ flags.abort = true ∨ flags.timedout = true ∨ flags.poll = true ∨
      flags.connected = true ∨ flags.newdata = false) :
    (appcall fs u i c b d flags malloc).accesses = [] := by
  refine appAccesses_eq_nil fun ⟨⟨_, h1, h2, h3, h4, h5⟩, h6⟩ => ?_
  simp only [appEvent] at h1 h2 h3 h4 h5 h6
  simp [h1, h2, h3, h4, h5, h6] at h

theorem uipPeriodic_accesses (fs : Fs) (u : Stack) (i : Fin 2) (b : Buf) :
    (uipPeriodic fs u i b).accesses = [] := by
  rw [uipPeriodic]
  dsimp only
  split
  · rfl
  split
  · rfl
  split
  · split
    · split
      · rw [sendNodata_accesses, appcall_accesses_eq_nil (by simp)]
      split
      · rfl
      split
      · rw [apprexmit_accesses, appcall_accesses_eq_nil (by simp)]
      · rfl
    · rfl
  split
  · rw [appsend_accesses, appcall_accesses_eq_nil (by simp)]
  · rfl

theorem finReceived_accesses : (finReceived fs u i c b d malloc).accesses = [] := by
  rw [finReceived, sendNodata_accesses, appcall_accesses_eq_nil (by simp)]

theorem synRcvd_accesses : (synRcvd fs u i c b d acked malloc).accesses = [] := by
  rw [synRcvd]
  split
  · rw [appsend_accesses, appcall_accesses_eq_nil (by simp)]
  · rfl

theorem finWait1_accesses : (finWait1 fs u i c b d acked malloc).accesses = [] := by
  rw [finWait1]
  dsimp only
  split
  · rw [finReceived_accesses]
  split
  · rfl
  split
  · rfl
  · rfl

theorem finWait2_accesses : (finWait2 fs u i c b d malloc).accesses = [] := by
  rw [finWait2]
  dsimp only
  split
  · rw [finReceived_accesses]
  split
  · rfl
  · rfl

theorem reset_accesses : (reset u b).accesses = [] := by
  rw [reset]
  split
  · rfl
  · rfl

theorem foundListen_accesses : (foundListen u b).accesses = [] := by
  rw [foundListen]
  split
  · rfl
  dsimp only
  split
  · rfl
  · rfl
  · rfl

/-- A segment of no connection is answered without a look behind its headers. -/
theorem tcpInput_accesses_eq_nil {len : ℕ} (h : demultiplex u b = none) :
    (tcpInput fs u b len malloc).accesses = [] := by
  rw [tcpInput, h]
  split
  · rfl
  dsimp only
  split
  · exact reset_accesses
  split
  · exact foundListen_accesses
  · exact reset_accesses

/-- An established connection hands its segment over unless the peer is closing. -/
theorem established_accesses :
    (established fs u i c b d acked malloc).accesses =
      if b.has tcpFin then []
      else
        appAccesses u.app
          (appEvent b (skipUrgent b d).2 i
            { c with
              rcvNxt := add32 (add32 c.rcvNxt (skipUrgent b d).1) (skipUrgent b d).2.len
              mss := if c.initialmss < b.wnd ∨ b.wnd = 0 then c.initialmss else b.wnd }
            { newdata := 0 < (skipUrgent b d).2.len, ackdata := acked } malloc)
          (skipUrgent b d).2.off := by
  rw [established]
  by_cases hfin : b.has tcpFin = true
  · rw [if_pos hfin, if_pos hfin]
    split
    · rfl
    · rw [sendNodata_accesses, appcall_accesses_eq_nil (by simp)]
  rw [if_neg hfin, if_neg hfin]
  dsimp only
  by_cases hcall : (decide (0 < (skipUrgent b d).2.len) || acked) = true
  · rw [if_pos hcall, appsend_accesses]
    rfl
  · rw [if_neg hcall, drop_accesses, appAccesses_eq_nil]
    rintro ⟨-, hnew⟩
    simp only [Bool.or_eq_true, not_or] at hcall
    exact hcall.1 hnew

theorem ackReceived_tcpState (c : Conn) (b : Buf) : (ackReceived c b).1.tcpState = c.tcpState := by
  rw [ackReceived]
  split
  · simp only [estimateRtt]
    split
    · rfl
    · rfl
  · rfl

end Accesses

/-- `uip_len` becomes the IP length, whatever the length of the frame. -/
theorem ipLength_eq (len : ℕ) (b : Buf) : ipLength len b = b.ipLen := by
  have h16 := (b 16).toNat_lt
  have h17 := (b 17).toNat_lt
  have hlen : (if (b 16).toNat ≠ len / 256 then 256 * (b 16).toNat + len % 256 else len)
      = 256 * (b 16).toNat + len % 256 := by
    split
    · rfl
    · omega
  simp only [ipLength, hlen, Buf.ipLen, be16, Nat.reduceAdd]
  split
  · omega
  · omega

/-- The accesses of a connection's segment. -/
theorem found_accesses (fs : Fs) (u : Stack) (x : Rx) (i : Fin 2) :
    (found fs u i x.buf x.buf.ipLen x.malloc).accesses =
      if (u.conns i).tcpState = .established ∧ x.buf.has tcpRst = false ∧
          x.buf.has tcpFin = false ∧
          ((payload x.buf).len = 0 ∨ x.buf.seqno = (u.conns i).rcvNxt) then
        appAccesses u.app (handed u x i) (handedOff x.buf)
      else [] := by
  rw [found]
  by_cases hrst : x.buf.has tcpRst = true
  · rw [if_pos hrst, if_neg (by simp [hrst])]
    rw [drop_accesses, appcall_accesses_eq_nil (by simp)]
  rw [if_neg hrst]
  dsimp only
  by_cases hseq : 0 < (payload x.buf).len ∧ x.buf.seqno ≠ (u.conns i).rcvNxt
  · rw [if_pos (show 0 < u16 (x.buf.ipLen - x.buf.hdrLen - 20) ∧ _ from hseq), if_neg]
    · rfl
    · rintro ⟨-, -, -, h | h⟩
      · omega
      · exact hseq.2 h
  rw [if_neg (show ¬ (0 < u16 (x.buf.ipLen - x.buf.hdrLen - 20) ∧ _) from hseq),
    ackReceived_tcpState]
  have hseq' : (payload x.buf).len = 0 ∨ x.buf.seqno = (u.conns i).rcvNxt := by
    by_contra h
    rw [not_or] at h
    exact hseq ⟨Nat.pos_of_ne_zero h.1, h.2⟩
  -- only an established connection passes data on
  rcases hs : (u.conns i).tcpState with _ | _ | _ | _ | _ | _ | _ | _
  all_goals dsimp only
  case established =>
    by_cases hfin : x.buf.has tcpFin = true
    · rw [if_neg (by simp [hfin]), established_accesses, if_pos hfin]
    · rw [if_pos ⟨rfl, by simpa using hrst, by simpa using hfin, hseq'⟩, established_accesses,
        if_neg hfin]
      rfl
  all_goals symm; rw [if_neg (by simp)]; symm
  case closed => rfl
  case synRcvd => exact synRcvd_accesses
  case finWait1 => exact finWait1_accesses
  case finWait2 => exact finWait2_accesses
  case closing => rfl
  case timeWait => rfl
  case lastAck =>
    split
    · rw [drop_accesses, appcall_accesses_eq_nil (by simp)]
    · rfl

/-- The application looks at the segment of an accepted frame. -/
theorem accesses_of_accepted (fs : Fs) {u : Stack} {x : Rx} {i : Fin 2}
    (h : Accepted u x.buf i) :
    (netReceiveHttpd fs u x).accesses =
      (0, x.frame.length) :: appAccesses u.app (handed u x i) (handedOff x.buf) := by
  obtain ⟨htype, hvhl, hfrag, hdest, hip, hproto, htcp, hdemux, hs, hrst, hfin, hseq⟩ := h
  rw [netReceiveHttpd, if_pos htype]
  dsimp only
  rw [uipInput, if_neg (not_not.mpr hvhl), ipLength_eq, if_neg (by simp [hfrag]),
    if_neg (not_not.mpr hdest), if_neg (not_not.mpr hip), if_pos hproto, tcpInput,
    if_neg (not_not.mpr htcp), hdemux]
  dsimp only
  rw [found_accesses, if_pos ⟨hs, hrst, hfin, hseq⟩]

/-- Of any other frame only the copy touches the buffer. -/
theorem accesses_of_not_accepted (fs : Fs) {u : Stack} {x : Rx}
    (h : ∀ i, ¬ Accepted u x.buf i) :
    (netReceiveHttpd fs u x).accesses = [(0, x.frame.length)] := by
  rw [netReceiveHttpd]
  by_cases htype : x.buf.ethType = 0x0800
  swap
  · rw [if_neg htype]
  rw [if_pos htype]
  dsimp only
  congr 1
  rw [uipInput]
  by_cases hvhl : x.buf.vhl = 0x45
  swap
  · rw [if_pos hvhl]
  rw [if_neg (not_not.mpr hvhl), ipLength_eq]
  by_cases hfrag : x.buf 20 &&& 0x3f ≠ 0 ∨ x.buf 21 ≠ 0
  · rw [if_pos hfrag]
  rw [if_neg hfrag]
  by_cases hdest : x.buf.destipaddr = u.hostaddr
  swap
  · rw [if_pos hdest]
  rw [if_neg (not_not.mpr hdest)]
  by_cases hip : uipIpchksum x.buf = 0xffff
  swap
  · rw [if_pos hip]
  rw [if_neg (not_not.mpr hip)]
  by_cases hproto : x.buf.proto = 6
  swap
  · rw [if_neg hproto]
    split
    · rfl
    · rfl
  rw [if_pos hproto]
  rcases hdemux : demultiplex u x.buf with _ | i
  · exact tcpInput_accesses_eq_nil hdemux
  rw [tcpInput, hdemux]
  by_cases htcp : uipTcpchksum x.buf = 0xffff
  swap
  · rw [if_pos htcp]
  rw [if_neg (not_not.mpr htcp)]
  dsimp only
  rw [found_accesses, if_neg]
  -- what `found` asks of the segment is the rest of what an accepted frame meets
  rintro ⟨hs, hrst, hfin, hseq⟩
  rw [not_or, not_not, not_not] at hfrag
  exact h i ⟨htype, hvhl, hfrag, hdest, hip, hproto, htcp, hdemux, hs, hrst, hfin, hseq⟩

/-! ### The condition -/

/-- The header lengths of the frame do not exceed the IP length, and the IP packet
ends where the buffer does or before. -/
def SegmentFits (b : Buf) : Prop :=
  b.hdrLen + 20 + (if b.has tcpUrg then 0 else b.urgp) ≤ b.ipLen ∧
    b.ipLen + 34 < bufBytes + b.hdrLen

/-- The request line at offset `off`, as far as it is looked at, ends inside the buffer; and
of a `POST` also the segment, with the line of its `Content-Length:`. -/
def RequestFits (b : Buf) (e : Event) (off : ℕ) : Prop :=
  off + examined e.appdata ≤ bufBytes ∧
    (Httpd.isGet e.appdata = false → Httpd.isPost e.appdata = true →
      SegmentFits b ∧ ∀ a ∈ lengthLine e.appdataZ, off + a.1 + a.2 ≤ bufBytes)

/-- The frame fits the buffer, and so does what the application does with its segment. -/
def Fits (u : Stack) (x : Rx) : Prop :=
  x.frame.length ≤ bufBytes ∧ ∀ i, Accepted u x.buf i →
    (Httpd.TakesBody u.app (handed u x i) → SegmentFits x.buf) ∧
      (Httpd.TakesRequest u.app (handed u x i) →
        RequestFits x.buf (handed u x i) (handedOff x.buf))

instance (b : Buf) : Decidable (SegmentFits b) := by unfold SegmentFits; infer_instance
instance (b : Buf) (e : Event) (off : ℕ) : Decidable (RequestFits b e off) := by
  unfold RequestFits; infer_instance
instance (u : Stack) (x : Rx) : Decidable (Fits u x) := by unfold Fits; infer_instance

/-- Where the segment ends: urgent data move its start, not its end, unless one of the
16-bit subtractions wraps, and then it ends far behind the buffer. -/
theorem segment_end_lt (b : Buf) :
    handedOff b + (skipUrgent b (payload b)).2.len < bufBytes ↔ SegmentFits b := by
  have hip : b.ipLen < 2 ^ 16 := by
    have h16 := (b 16).toNat_lt
    have h17 := (b (16 + 1)).toNat_lt
    simp only [Buf.ipLen, be16]
    omega
  have hurg : b.urgp < 2 ^ 16 := by
    have h52 := (b 52).toNat_lt
    have h53 := (b (52 + 1)).toNat_lt
    simp only [Buf.urgp, be16]
    omega
  have hhdr : b.hdrLen ≤ 60 := by
    have := b.tcpoffset.toNat_lt
    simp only [Buf.hdrLen]
    omega
  have hlen : (payload b).len = u16 (b.ipLen - b.hdrLen - 20) := rfl
  have hoff : (payload b).off = 54 := rfl
  rw [u16] at hlen
  simp only [handedOff, skipUrgent, SegmentFits, bufBytes, bufsize]
  -- urgent data are cut off, or the urgent pointer moves the data without the flag too
  by_cases hu : b.has tcpUrg = true
  · rw [if_pos hu, if_pos hu]
    simp only [u16]
    split
    · omega
    · omega
  · rw [if_neg hu, if_neg hu]
    simp only [u16]
    omega

/-- A frame is accepted for one connection at most. -/
theorem forall_accepted_iff {u : Stack} {b : Buf} {i : Fin 2} {P : Fin 2 → Prop}
    (hi : Accepted u b i) : (∀ j, Accepted u b j → P j) ↔ P i := by
  refine ⟨fun h => h i hi, fun h j hj => ?_⟩
  obtain ⟨-, -, -, -, -, -, -, hdemux, -⟩ := hi
  obtain ⟨-, -, -, -, -, -, -, hdemux', -⟩ := hj
  obtain rfl := Option.some.inj (hdemux'.symm.trans hdemux)
  exact h

/-- The NUL behind the name of a `GET` is among the bytes that were looked at. -/
theorem examined_of_nameEnd {buf : List UInt8} {k : ℕ} (hget : Httpd.isGet buf = true)
    (hk : nameEnd buf = some k) : examined buf = k + 1 := by
  rw [examined, if_pos hget, hk]

theorem inBounds_cons {off n : ℕ} {acc : List (ℕ × ℕ)} :
    InBounds ((off, n) :: acc) ↔ off + n ≤ bufBytes ∧ InBounds acc := by
  simp [InBounds]

theorem inBounds_nil : InBounds [] := by simp [InBounds]

section Application

variable {s : Httpd.State} {b : Buf} {e : Event} {off : ℕ}

/-- The segment and the NUL behind it. -/
theorem inBounds_terminate (hend : off + e.seg.length < bufBytes ↔ SegmentFits b)
    (acc : List (ℕ × ℕ)) :
    InBounds ((off, e.seg.length) :: (off + e.seg.length, 1) :: acc) ↔
      SegmentFits b ∧ InBounds acc := by
  rw [inBounds_cons, inBounds_cons, ← hend]
  exact ⟨fun h => h.2, fun h => ⟨h.1.le, h⟩⟩

/-- The search for the line end of `Content-Length:`. -/
theorem inBounds_lengthLine (buf : List UInt8) :
    InBounds ((lengthLine buf).toList.map fun a => (off + a.1, a.2)) ↔
      ∀ a ∈ lengthLine buf, off + a.1 + a.2 ≤ bufBytes := by
  rcases lengthLine buf with _ | ⟨k, n⟩
  · simp [InBounds]
  · simp [InBounds]

/-- What is done with a request stays inside `uip_buf`. -/
theorem inBounds_request (hend : off + e.seg.length < bufBytes ↔ SegmentFits b)
    (hbody : ¬ Httpd.TakesBody s e) (hreq : Httpd.TakesRequest s e) :
    InBounds (appAccesses s e off) ↔ RequestFits b e off := by
  rw [appAccesses, if_neg hbody, if_pos hreq, inBounds_cons, RequestFits]
  refine and_congr_right fun hexamined => ?_
  by_cases hget : Httpd.isGet e.appdata = true
  · rw [if_pos hget]
    refine iff_of_true ?_ fun h => absurd hget (by rw [h]; decide)
    rcases hname : nameEnd e.appdata with _ | k
    · exact inBounds_nil
    · rw [examined_of_nameEnd hget hname] at hexamined
      refine inBounds_cons.mpr ⟨?_, inBounds_nil⟩
      omega
  rw [if_neg hget]
  by_cases hpost : Httpd.isPost e.appdata = true
  swap
  · rw [if_neg hpost]
    exact iff_of_true inBounds_nil fun _ h => absurd h hpost
  rw [if_pos hpost, List.cons_append, List.cons_append, List.nil_append,
    inBounds_terminate hend, inBounds_lengthLine]
  exact ⟨fun h _ _ => h, fun h => h (by simpa using hget) hpost⟩

/-- What the application does with a segment stays inside `uip_buf`. -/
theorem inBounds_appAccesses (hend : off + e.seg.length < bufBytes ↔ SegmentFits b) :
    InBounds (appAccesses s e off) ↔
      (Httpd.TakesBody s e → SegmentFits b) ∧
        (Httpd.TakesRequest s e → RequestFits b e off) := by
  by_cases hbody : Httpd.TakesBody s e
  · have hreq : ¬ Httpd.TakesRequest s e := by
      intro hreq
      have hstate := hbody.2.2.1
      rw [hreq.2.2] at hstate
      cases hstate
    rw [appAccesses, if_pos hbody, inBounds_terminate hend]
    exact ⟨fun h => ⟨fun _ => h.1, fun h' => absurd h' hreq⟩,
      fun h => ⟨h.1 hbody, inBounds_nil⟩⟩
  by_cases hreq : Httpd.TakesRequest s e
  · rw [inBounds_request hend hbody hreq]
    exact ⟨fun h => ⟨fun h' => absurd h' hbody, fun _ => h⟩, fun h => h.2 hreq⟩
  · rw [appAccesses, if_neg hbody, if_neg hreq]
    exact iff_of_true inBounds_nil ⟨fun h => absurd h hbody, fun h => absurd h hreq⟩

end Application

/-- **One frame.**  The accesses for a frame stay inside `uip_buf` iff it fits. -/
theorem inBounds_iff_fits (fs : Fs) (u : Stack) (x : Rx) :
    InBounds (netReceiveHttpd fs u x).accesses ↔ Fits u x := by
  have hcopy : ∀ acc, InBounds ((0, x.frame.length) :: acc) ↔
      x.frame.length ≤ bufBytes ∧ InBounds acc := by
    intro acc
    rw [inBounds_cons, Nat.zero_add]
  by_cases hacc : ∃ i, Accepted u x.buf i
  swap
  · have hno : ∀ i, ¬ Accepted u x.buf i := fun i hi => hacc ⟨i, hi⟩
    rw [accesses_of_not_accepted fs hno, hcopy]
    exact and_congr_right fun _ => iff_of_true inBounds_nil fun i hi => absurd hi (hno i)
  obtain ⟨i, hi⟩ := hacc
  have hseg : (handed u x i).seg.length = (skipUrgent x.buf (payload x.buf)).2.len := by
    simp [handed, appEvent]
  rw [accesses_of_accepted fs hi, hcopy]
  refine and_congr_right fun _ => ?_
  rw [forall_accepted_iff hi]
  refine inBounds_appAccesses ?_
  rw [hseg]
  exact segment_end_lt x.buf

/-- The accesses of a step stay inside `uip_buf`. -/
def StepInBounds (fs : Fs) (u : Stack) (input : Input) : Prop := InBounds (stackStep fs u input).2

instance (fs : Fs) (u : Stack) (input : Input) : Decidable (StepInBounds fs u input) := by
  unfold StepInBounds; infer_instance

/-- A frame that comes in fits. -/
def InputFits (u : Stack) : Input → Prop
  | .frame x => u.hung = false → Fits u x
  | .periodic _ _ => True

theorem stepInBounds_iff (fs : Fs) (u : Stack) (input : Input) :
    StepInBounds fs u input ↔ InputFits u input := by
  unfold StepInBounds stackStep
  by_cases hh : u.hung = true
  · rw [if_pos hh]
    refine iff_of_true inBounds_nil ?_
    cases input with
    | frame x => exact fun h => absurd hh (by simp [h])
    | periodic i b => trivial
  rw [if_neg hh]
  cases input with
  | frame x =>
    rw [InputFits, ← inBounds_iff_fits fs]
    exact ⟨fun h _ => h, fun h => h (by simpa using hh)⟩
  | periodic i b =>
    refine iff_of_true ?_ trivial
    show InBounds (uipPeriodic fs u i b).accesses
    rw [uipPeriodic_accesses]
    exact inBounds_nil

/-- **Receive-path bounds.**  A run of the stack stays inside the packet buffer iff all
its frames fit. -/
theorem receive_inBounds_iff (fs : Fs) (hostaddr : ℕ) (ram : Httpd.Ram) (inputs : List Input) :
    Run.AllSteps (stackStep fs) (StepInBounds fs) (start hostaddr ram) inputs ↔
      Run.AllSteps (stackStep fs) InputFits (start hostaddr ram) inputs :=
  Run.allSteps_congr (stepInBounds_iff fs)

/-! ### Frames that do not fit -/

/-- A segment from 192.168.1.2, port 1234, to port 80 of 192.168.1.1. -/
def clientFrame (ipLen ipSum : ℕ) (seqno ackno flags : UInt8) (sum : ℕ) (data : List UInt8) :
    List UInt8 :=
  let be (n : ℕ) : List UInt8 := [UInt8.ofNat (n / 256), UInt8.ofNat n]
  List.replicate 12 0 ++ [0x08, 0, 0x45, 0] ++ be ipLen ++ [0, 0, 0, 0, 64, 6] ++ be ipSum
    ++ [192, 168, 1, 2, 192, 168, 1, 1, 0x04, 0xd2, 0, 80, 0, 0, 0, seqno, 0, 0, 0, ackno, 0x50,
      flags, 0x0b, 0xb8] ++ be sum ++ [0, 0] ++ data

/-- The handshake and then a `POST` of six bytes whose IP length claims 1448. -/
def lyingRun : List Input :=
  [.frame { frame := clientFrame 40 0xf77c 100 0 tcpSyn 0x1b51 [] },
    .frame { frame := clientFrame 40 0xf77c 101 1 tcpAck 0x1b41 [] },
    .frame
      { frame := clientFrame 1488 0xf1d4 101 1 (tcpAck ||| tcpPsh) 0x51be
          (CString.ascii "POST /") }]

/-- **Overruns.**  A frame of 1518 bytes is copied over the end of the buffer, and a frame of
60 bytes has its NUL stored right behind it. -/
theorem receive_overruns :
    ¬ StepInBounds default (start 0xc0a80101 fun _ => 0)
        (.frame { frame := List.replicate 1518 0, le := List.length_replicate.le }) ∧
      ¬ Run.AllSteps (stackStep default) (StepInBounds default) (start 0xc0a80101 fun _ => 0)
        lyingRun := by
  refine ⟨by decide +kernel, by decide +kernel⟩

end Uip
