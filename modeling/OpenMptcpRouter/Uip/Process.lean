/-
The TCP/IP stack under the web server (`httpd/uip.c`): one run of `uip_process`.

`Stack` is what uIP keeps between two packets, together with the state of the
application; `Buf` is the memory from `uip_buf` on.  `uipInput` is
`uip_process (UIP_DATA)` and `uipPeriodic` is `uip_process (UIP_TIMER)`, each label
of the source a definition of its own.  A run returns the new stack, the accesses
the application makes to the packet buffer as segment data, and the packet sent.

`uip_len` and the offset of `uip_appdata` in the buffer travel together as
`AppData`.  Left out are the ARP cache, the IP identification counter and
`UIP_STOPPED`, which the web server never sets.

The scan of the TCP options in a SYN counts in an 8-bit variable and can go round
for ever; the stack is then `hung`.
-/
import OpenMptcpRouter.Httpd.Steps

namespace Uip

open Httpd (Flags Fs Event Out Reply)

/-! ### Configuration (`httpd/uipopt.h`) -/

/-- `UIP_BUFSIZE`. -/
def bufsize : ℕ := 1500

/-- `sizeof (uip_buf)`. -/
def bufBytes : ℕ := bufsize + 2

/-- `UIP_LLH_LEN`. -/
def llhLen : ℕ := 14

/-- `UIP_TCP_MSS`. -/
def tcpMss : ℕ := bufsize - llhLen - 40

/-- `UIP_RTO`. -/
def rtoInit : UInt8 := 3

/-- Value of a `u16_t`. -/
def u16 (x : ℤ) : ℕ := (x % 2 ^ 16).toNat

theorem u16_lt (x : ℤ) : u16 x < 2 ^ 16 := by
  rw [u16]
  omega

/-- `uip_add32`. -/
def add32 (x n : ℕ) : ℕ := (x + n) % 2 ^ 32

/-! ### Connections -/

/-- `tcpstateflags & TS_MASK`; there is no active open, so `SYN_SENT` does not occur. -/
inductive TcpState
  | closed
  | synRcvd
  | established
  | finWait1
  | finWait2
  | closing
  | timeWait
  | lastAck
  deriving DecidableEq, Repr

/-- `struct uip_conn`, addresses, ports and sequence numbers as numbers. -/
structure Conn where
  ripaddr : ℕ := 0
  lport : ℕ := 0
  rport : ℕ := 0
  rcvNxt : ℕ := 0
  sndNxt : ℕ := 0
  len : ℕ := 0
  mss : ℕ := 0
  initialmss : ℕ := 0
  sa : UInt8 := 0
  sv : UInt8 := 0
  rto : UInt8 := 0
  timer : UInt8 := 0
  nrtx : UInt8 := 0
  tcpState : TcpState := .closed
  deriving DecidableEq, Repr

/-- The stack and the application over it. -/
structure Stack where
  conns : Fin 2 → Conn
  iss : ℕ
  hostaddr : ℕ
  /-- `uip_process` has been entered and does not return -/
  hung : Bool
  app : Httpd.State

/-- The stack after `uip_init` and `httpd_init`, with address `hostaddr`. -/
def start (hostaddr : ℕ) (ram : Httpd.Ram) : Stack where
  conns := fun _ => {}
  iss := 0
  hostaddr := hostaddr
  hung := false
  app := Httpd.initial ram

def Stack.setConn (u : Stack) (i : Fin 2) (c : Conn) : Stack :=
  { u with conns := Function.update u.conns i c }

/-- A packet uIP sends. -/
inductive Packet
  | tcp (flags : UInt8) (seqno ackno : ℕ) (data : List UInt8)
  | echoReply
  deriving DecidableEq, Repr

/-- What a run of `uip_process` does: the new stack, the accesses to `uip_buf` as
offset and length, the packet sent. -/
structure Result where
  stack : Stack
  accesses : List (ℕ × ℕ) := []
  sent : Option Packet := none

/-! ### The packet buffer -/

/-- The memory from `uip_buf` on. -/
abbrev Buf := ℕ → UInt8

/-- The `n` bytes at offset `off`. -/
def bytesAt (b : Buf) (off n : ℕ) : List UInt8 := (List.range n).map fun k => b (off + k)

@[simp] theorem length_bytesAt (b : Buf) (off n : ℕ) : (bytesAt b off n).length = n := by
  simp [bytesAt]

/-- The 16-bit field at offset `i`. -/
def be16 (b : Buf) (i : ℕ) : ℕ := 256 * (b i).toNat + (b (i + 1)).toNat

/-- The 32-bit field at offset `i`. -/
def be32 (b : Buf) (i : ℕ) : ℕ := 2 ^ 16 * be16 b i + be16 b (i + 2)

/-! The fields of the header by their names in `uip_tcpip_hdr`. -/

def Buf.ethType (b : Buf) : ℕ := be16 b 12
def Buf.vhl (b : Buf) : UInt8 := b 14
def Buf.ipLen (b : Buf) : ℕ := be16 b 16
def Buf.proto (b : Buf) : UInt8 := b 23
def Buf.srcipaddr (b : Buf) : ℕ := be32 b 26
def Buf.destipaddr (b : Buf) : ℕ := be32 b 30
def Buf.srcport (b : Buf) : ℕ := be16 b 34
def Buf.destport (b : Buf) : ℕ := be16 b 36
def Buf.seqno (b : Buf) : ℕ := be32 b 38
def Buf.ackno (b : Buf) : ℕ := be32 b 42
def Buf.tcpoffset (b : Buf) : UInt8 := b 46
def Buf.flags (b : Buf) : UInt8 := b 47
def Buf.wnd (b : Buf) : ℕ := be16 b 48
def Buf.urgp (b : Buf) : ℕ := be16 b 52

/-- The length of the TCP header by its data offset. -/
def Buf.hdrLen (b : Buf) : ℕ := b.tcpoffset.toNat / 16 * 4

def tcpFin : UInt8 := 0x01
def tcpSyn : UInt8 := 0x02
def tcpRst : UInt8 := 0x04
def tcpPsh : UInt8 := 0x08
def tcpAck : UInt8 := 0x10
def tcpUrg : UInt8 := 0x20
def tcpCtl : UInt8 := 0x3f

/-- A flag of the TCP header. -/
def Buf.has (b : Buf) (flag : UInt8) : Bool := b.flags &&& flag ≠ 0

/-! ### Checksums (`httpd/uip_arch.c`)

Everything is kept in network order; the sums are only compared with `0xffff`. -/

/-- `sum += t; if (sum < t) sum++;` -/
def onesAdd (sum t : ℕ) : ℕ := if sum + t < 2 ^ 16 then sum + t else (sum + t + 1) % 2 ^ 16

/-- `chksum`. -/
def chksum (sum : ℕ) : List UInt8 → ℕ
  | [] => sum
  | [x] => onesAdd sum (256 * x.toNat)
  | x :: y :: rest => chksum (onesAdd sum (256 * x.toNat + y.toNat)) rest

/-- `uip_ipchksum`. -/
def uipIpchksum (b : Buf) : ℕ := chksum 0 (bytesAt b llhLen 20)

/-- `uip_tcpchksum`. -/
def uipTcpchksum (b : Buf) : ℕ :=
  let hsum := chksum 0 (bytesAt b (20 + llhLen) 20)
  let sum := chksum 0 (bytesAt b (40 + llhLen) (u16 (b.ipLen - 40)))
  [hsum, be16 b 26, be16 b 28, be16 b 30, be16 b 32, 6, u16 (b.ipLen - 20)].foldl onesAdd sum

/-! ### Calling the application -/

/-- `uip_appdata`, as an offset in the buffer, and `uip_len`. -/
structure AppData where
  off : ℕ
  len : ℕ
  lt : len < 2 ^ 16

/-- No data; `uip_appdata` points behind the headers. -/
def AppData.nothing : AppData := ⟨40 + llhLen, 0, by decide⟩

/-- The call uIP makes for connection `i` in state `c`.  Behind the segment the
application sees the rest of the buffer. -/
def appEvent (b : Buf) (d : AppData) (i : Fin 2) (c : Conn) (flags : Flags) (malloc : Bool) :
    Event where
  conn := i
  lport := c.lport
  flags := flags
  seg := bytesAt b d.off d.len
  stale := bytesAt b (d.off + d.len) (bufBytes - (d.off + d.len) + 30)
  mss := c.mss
  len := c.len
  malloc := malloc
  seg_lt := by simpa using d.lt

/-- The number of bytes compared with the characters `pat` and one character more. -/
def compared : List UInt8 → List UInt8 → ℕ
  | [], _ => 1
  | _ :: _, [] => 1
  | p :: pat, x :: xs => if x = p then compared pat xs + 1 else 1

/-- Where the name a `GET` asks for ends and a NUL is stored. -/
def nameEnd (buf : List UInt8) : Option ℕ :=
  (((buf.drop 4).take 26).findIdx? fun c => c = 0x20 || c = 0x0d || c = 0x0a || c = 0x09).map
    (4 + ·)

/-- The number of bytes `httpd_appcall` looks at before it knows the request line: it takes
them from the buffer, whatever `uip_len` is. -/
def examined (buf : List UInt8) : ℕ :=
  if Httpd.isGet buf then
    match nameEnd buf with
    | none => 30
    | some k => k + 1
  else
    max (compared (CString.ascii "GET") buf) (compared (CString.ascii "POST") buf)

/-- The C string in which the end of the line of `Content-Length:` is looked for, as offset and
length.  It starts one character behind the name, so that it may start behind the NUL that
ends the segment. -/
def lengthLine (buf : List UInt8) : Option (ℕ × ℕ) :=
  (CString.strstr buf 0 (CString.ascii "Content-Length:")).map fun i =>
    (i + 16, (CString.cstr (buf.drop (i + 16))).length + 1)

/-- The accesses of `httpd_appcall` to a segment at offset `off`.  The segment of a `POST` or of
an upload is ended with a NUL, and up to there it may read everything. -/
def appAccesses (s : Httpd.State) (e : Event) (off : ℕ) : List (ℕ × ℕ) :=
  let terminate := [(off, e.seg.length), (off + e.seg.length, 1)]
  if Httpd.TakesBody s e then terminate
  else if Httpd.TakesRequest s e then
    (off, examined e.appdata) ::
      if Httpd.isGet e.appdata then (nameEnd e.appdata).toList.map fun k => (off + k, 1)
      else if Httpd.isPost e.appdata then
        terminate ++ (lengthLine e.appdataZ).toList.map fun a => (off + a.1, a.2)
      else []
  else []

/-- `uip_flags` after the call. -/
def flagsAfter (flags : Flags) : Reply → Flags
  | .none => flags
  | .close => { close := true }
  | .abort => { abort := true }

/-- What `UIP_APPCALL ()` leaves behind. -/
structure Called where
  app : Httpd.State
  flags : Flags
  /-- `uip_slen` -/
  slen : ℕ
  accesses : List (ℕ × ℕ)

/-- `UIP_APPCALL ()`. -/
def appcall (fs : Fs) (u : Stack) (i : Fin 2) (c : Conn) (b : Buf) (d : AppData) (flags : Flags)
    (malloc : Bool) : Called :=
  let e := appEvent b d i c flags malloc
  let r := Httpd.httpdAppcall fs u.app e
  { app := r.1
    flags := flagsAfter flags r.2.reply
    slen := u16 ((r.2.send.getD []).length)
    accesses := appAccesses u.app e d.off }

/-! ### Sending -/

/-- `tcp_send` with the given flags and data. -/
def tcpSend (c : Conn) (flags : UInt8) (data : List UInt8) : Option Packet :=
  some (.tcp flags c.sndNxt c.rcvNxt data)

/-- `goto drop`. -/
def drop (u : Stack) (i : Fin 2) (c : Conn) (accesses : List (ℕ × ℕ)) : Result :=
  { stack := u.setConn i c, accesses := accesses }

/-- Label `tcp_send_nodata`, reached with the given flags. -/
def sendNodata (u : Stack) (i : Fin 2) (c : Conn) (flags : UInt8) (accesses : List (ℕ × ℕ)) :
    Result :=
  { stack := u.setConn i c, accesses := accesses, sent := tcpSend c flags [] }

/-- Label `apprexmit`: the data sent are those `uip_sappdata` points to, which the
application has set to `hs->dataptr`. -/
def apprexmit (u : Stack) (i : Fin 2) (c : Conn) (r : Called) (slen : ℕ) : Result :=
  if 0 < slen ∧ 0 < c.len then
    { stack := u.setConn i c
      accesses := r.accesses
      sent := tcpSend c (tcpAck ||| tcpPsh) (r.app.dataptr.take c.len) }
  else if r.flags.newdata then sendNodata u i c tcpAck r.accesses
  else drop u i c r.accesses

/-- Label `appsend`. -/
def appsend (u : Stack) (i : Fin 2) (c : Conn) (r : Called) : Result :=
  let u := { u with app := r.app }
  if r.flags.abort then
    sendNodata u i { c with tcpState := .closed } (tcpRst ||| tcpAck) r.accesses
  else if r.flags.close then
    sendNodata u i { c with len := 1, tcpState := .finWait1, nrtx := 0 } (tcpFin ||| tcpAck)
      r.accesses
  else if 0 < r.slen then
    let len := if r.flags.ackdata then 0 else c.len
    if len = 0 then
      let slen := if c.mss < r.slen then c.mss else r.slen
      apprexmit u i { c with len := slen, nrtx := 0 } r slen
    else apprexmit u i { c with len := len, nrtx := 0 } r len
  else apprexmit u i { c with len := 0, nrtx := 0 } r 0

/-! ### Segments of a connection -/

/-- The round-trip estimation for an acknowledgement of data sent once. -/
def estimateRtt (c : Conn) : Conn :=
  if c.nrtx = 0 then
    let m := c.rto - c.timer - (c.sa >>> 3)
    let sa := c.sa + m
    -- `m` is a signed character
    let m := if 128 ≤ m then 0 - m else m
    let sv := c.sv + (m - (c.sv >>> 2))
    { c with sa := sa, sv := sv, rto := (sa >>> 3) + sv }
  else c

/-- Whether the segment acknowledges the outstanding data, and the connection after it. -/
def ackReceived (c : Conn) (b : Buf) : Conn × Bool :=
  if b.has tcpAck ∧ c.len ≠ 0 ∧ b.ackno = add32 c.sndNxt c.len then
    let c := estimateRtt { c with sndNxt := add32 c.sndNxt c.len }
    ({ c with timer := c.rto }, true)
  else (c, false)

/-- The urgent data are taken off the segment; `rcv_nxt` moves past them. -/
def skipUrgent (b : Buf) (d : AppData) : ℕ × AppData :=
  if b.has tcpUrg then
    -- `uip_urglen` is 8 bits wide
    let urglen := if d.len < b.urgp % 256 then d.len else b.urgp % 256
    (urglen, ⟨d.off + urglen, u16 (d.len - urglen), u16_lt _⟩)
  else (0, ⟨d.off + b.urgp, u16 (d.len - b.urgp), u16_lt _⟩)

/-- Case `ESTABLISHED`. -/
def established (fs : Fs) (u : Stack) (i : Fin 2) (c : Conn) (b : Buf) (d : AppData) (acked : Bool)
    (malloc : Bool) : Result :=
  if b.has tcpFin then
    if c.len ≠ 0 then drop u i c []
    else
      let c := { c with rcvNxt := add32 c.rcvNxt (u16 (1 + d.len)) }
      let r := appcall fs u i c b d { close := true, newdata := 0 < d.len } malloc
      sendNodata { u with app := r.app } i { c with len := 1, tcpState := .lastAck, nrtx := 0 }
        (tcpFin ||| tcpAck) r.accesses
  else
    let (urglen, d) := skipUrgent b d
    let newdata : Bool := 0 < d.len
    let wnd := if c.initialmss < b.wnd ∨ b.wnd = 0 then c.initialmss else b.wnd
    let c := { c with rcvNxt := add32 (add32 c.rcvNxt urglen) d.len, mss := wnd }
    if newdata || acked then
      appsend u i c (appcall fs u i c b d { newdata := newdata, ackdata := acked } malloc)
    else drop u i c []

/-- Case `SYN_RCVD`. -/
def synRcvd (fs : Fs) (u : Stack) (i : Fin 2) (c : Conn) (b : Buf) (d : AppData) (acked : Bool)
    (malloc : Bool) : Result :=
  if acked then
    let c := { c with tcpState := .established, len := 0, rcvNxt := add32 c.rcvNxt d.len }
    appsend u i c (appcall fs u i c b d { connected := true, newdata := 0 < d.len } malloc)
  else drop u i c []

/-- The peer's FIN in `FIN_WAIT_1` and `FIN_WAIT_2`. -/
def finReceived (fs : Fs) (u : Stack) (i : Fin 2) (c : Conn) (b : Buf) (d : AppData)
    (malloc : Bool) : Result :=
  let c := { c with rcvNxt := add32 c.rcvNxt 1 }
  let r := appcall fs u i c b d { close := true } malloc
  sendNodata { u with app := r.app } i c tcpAck r.accesses

/-- Case `FIN_WAIT_1`. -/
def finWait1 (fs : Fs) (u : Stack) (i : Fin 2) (c : Conn) (b : Buf) (d : AppData) (acked : Bool)
    (malloc : Bool) : Result :=
  let c := { c with rcvNxt := add32 c.rcvNxt d.len }
  if b.has tcpFin then
    finReceived fs u i
      (if acked then { c with tcpState := .timeWait, timer := 0, len := 0 }
        else { c with tcpState := .closing }) b d malloc
  else if acked then drop u i { c with tcpState := .finWait2, len := 0 } []
  else if 0 < d.len then sendNodata u i c tcpAck []
  else drop u i c []

/-- Case `FIN_WAIT_2`. -/
def finWait2 (fs : Fs) (u : Stack) (i : Fin 2) (c : Conn) (b : Buf) (d : AppData) (malloc : Bool) :
    Result :=
  let c := { c with rcvNxt := add32 c.rcvNxt d.len }
  if b.has tcpFin then finReceived fs u i { c with tcpState := .timeWait, timer := 0 } b d malloc
  else if 0 < d.len then sendNodata u i c tcpAck []
  else drop u i c []

/-- Label `found`: a segment of connection `i`. -/
def found (fs : Fs) (u : Stack) (i : Fin 2) (b : Buf) (ipLen : ℕ) (malloc : Bool) : Result :=
  let c := u.conns i
  if b.has tcpRst then
    let c := { c with tcpState := .closed }
    let d : AppData := ⟨40 + llhLen, u16 ipLen, u16_lt _⟩
    let r := appcall fs u i c b d { abort := true } malloc
    drop { u with app := r.app } i c r.accesses
  else
    let d : AppData := ⟨40 + llhLen, u16 (ipLen - b.hdrLen - 20), u16_lt _⟩
    if 0 < d.len ∧ b.seqno ≠ c.rcvNxt then sendNodata u i c tcpAck []
    else
      let (c, acked) := ackReceived c b
      match c.tcpState with
      | .closed => drop u i c []
      | .synRcvd => synRcvd fs u i c b d acked malloc
      | .established => established fs u i c b d acked malloc
      | .lastAck =>
        if acked then
          let c := { c with tcpState := .closed }
          let r := appcall fs u i c b d { close := true } malloc
          drop { u with app := r.app } i c r.accesses
        else drop u i c []
      | .finWait1 => finWait1 fs u i c b d acked malloc
      | .finWait2 => finWait2 fs u i c b d malloc
      | .timeWait => sendNodata u i c tcpAck []
      | .closing => drop u i (if acked then { c with tcpState := .timeWait, timer := 0 } else c) []

/-! ### New connections -/

/-- How the scan of the TCP options of a SYN ends. -/
inductive OptionScan
  | absent
  | mss (value : ℕ)
  | endless
  deriving DecidableEq, Repr

/-- The scan of the options from offset `c` on, `n` bytes in all.  Offsets stay below
`n ≤ 40`, so a scan of more than `n` rounds has come back to one of them. -/
def scanOptions (b : Buf) (n : ℕ) : (rounds c : ℕ) → OptionScan
  | 0, _ => .endless
  | rounds + 1, c =>
    if c < n then
      let opt := b (40 + llhLen + c)
      let optlen := (b (40 + llhLen + 1 + c)).toNat
      if opt = 0 then .absent
      else if opt = 1 then scanOptions b n rounds (c + 1)
      else if opt = 2 ∧ optlen = 4 then .mss (be16 b (40 + llhLen + 2 + c))
      else if optlen = 0 then .absent
      else scanOptions b n rounds ((c + optlen) % 256)
    else .absent

/-- The connection for a SYN: the first closed one, or the oldest in `TIME_WAIT`. -/
def freeConn (conns : Fin 2 → Conn) : Option (Fin 2) :=
  if (conns 0).tcpState = .closed then some 0
  else if (conns 1).tcpState = .closed then some 1
  else if (conns 0).tcpState = .timeWait then
    if (conns 1).tcpState = .timeWait ∧ (conns 0).timer < (conns 1).timer then some 1 else some 0
  else if (conns 1).tcpState = .timeWait then some 1
  else none

/-- Label `found_listen`.  Without an MSS option the connection keeps the segment
sizes of its last use. -/
def foundListen (u : Stack) (b : Buf) : Result :=
  match freeConn u.conns with
  | none => { stack := u }
  | some i =>
    let c : Conn :=
      { u.conns i with
        rto := rtoInit, timer := rtoInit, sa := 0, sv := 4, nrtx := 0
        lport := b.destport, rport := b.srcport, ripaddr := b.srcipaddr
        tcpState := .synRcvd, sndNxt := u.iss, len := 1, rcvNxt := add32 b.seqno 1 }
    let n := b.hdrLen - 20
    match scanOptions b n (n + 1) 0 with
    | .absent => sendNodata u i c (tcpSyn ||| tcpAck) []
    | .mss v =>
      let v := if tcpMss < v then tcpMss else v
      sendNodata u i { c with initialmss := v, mss := v } (tcpSyn ||| tcpAck) []
    | .endless => { stack := { u.setConn i c with hung := true } }

/-- Label `reset`. -/
def reset (u : Stack) (b : Buf) : Result :=
  if b.has tcpRst then { stack := u }
  else { stack := u, sent := some (.tcp (tcpRst ||| tcpAck) b.ackno (add32 b.seqno 1) []) }

/-- The connection a segment belongs to. -/
def demultiplex (u : Stack) (b : Buf) : Option (Fin 2) :=
  (List.finRange 2).find? fun i =>
    (u.conns i).tcpState ≠ .closed ∧ b.destport = (u.conns i).lport ∧
      b.srcport = (u.conns i).rport ∧ b.srcipaddr = (u.conns i).ripaddr

/-- Label `tcp_input`. -/
def tcpInput (fs : Fs) (u : Stack) (b : Buf) (ipLen : ℕ) (malloc : Bool) : Result :=
  if uipTcpchksum b ≠ 0xffff then { stack := u }
  else
    match demultiplex u b with
    | some i => found fs u i b ipLen malloc
    | none =>
      if b.flags &&& tcpCtl ≠ tcpSyn then reset u b
      else if b.destport = 80 then foundListen u b
      else reset u b

/-! ### Packets and time -/

/-- `uip_len` after it has been compared with the two bytes of the IP length. -/
def ipLength (len : ℕ) (b : Buf) : ℕ :=
  let len := if (b 16).toNat ≠ len / 256 then 256 * (b 16).toNat + len % 256 else len
  if (b 17).toNat ≠ len % 256 then len / 256 * 256 + (b 17).toNat else len

/-- `uip_input`: a packet of `len` bytes behind the link-level header. -/
def uipInput (fs : Fs) (u : Stack) (b : Buf) (len : ℕ) (malloc : Bool) : Result :=
  if b.vhl ≠ 0x45 then { stack := u }
  else
    let len := ipLength len b
    if b 20 &&& 0x3f ≠ 0 ∨ b 21 ≠ 0 then { stack := u }
    else if b.destipaddr ≠ u.hostaddr then { stack := u }
    else if uipIpchksum b ≠ 0xffff then { stack := u }
    else if b.proto = 6 then tcpInput fs u b len malloc
    else if b.proto = 1 ∧ b 34 = 8 then { stack := u, sent := some .echoReply }
    else { stack := u }

/-- `uip_periodic (i)`. -/
def uipPeriodic (fs : Fs) (u : Stack) (i : Fin 2) (b : Buf) : Result :=
  let u := { u with iss := add32 u.iss 1 }
  let c := u.conns i
  if c.tcpState = .timeWait ∨ c.tcpState = .finWait2 then
    let c := { c with timer := c.timer + 1 }
    drop u i (if c.timer = 120 then { c with tcpState := .closed } else c) []
  else if c.tcpState = .closed then { stack := u }
  else if c.len ≠ 0 then
    let fired : Bool := c.timer = 0
    let c := { c with timer := c.timer - 1 }
    if fired then
      if c.nrtx = 8 ∨ c.tcpState = .synRcvd ∧ c.nrtx = 3 then
        let c := { c with tcpState := .closed }
        let r := appcall fs u i c b .nothing { timedout := true } true
        sendNodata { u with app := r.app } i c (tcpRst ||| tcpAck) r.accesses
      else
        let c :=
          { c with
            timer := rtoInit <<< (if 4 < c.nrtx then 4 else c.nrtx)
            nrtx := c.nrtx + 1 }
        if c.tcpState = .synRcvd then sendNodata u i c (tcpSyn ||| tcpAck) []
        else if c.tcpState = .established then
          let r := appcall fs u i c b .nothing { rexmit := true } true
          apprexmit { u with app := r.app } i c r r.slen
        else sendNodata u i c (tcpFin ||| tcpAck) []
    else drop u i c []
  else if c.tcpState = .established then
    appsend u i c (appcall fs u i c b .nothing { poll := true } true)
  else { stack := u }

end Uip
