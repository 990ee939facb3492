/-
The bytes on the wire.

`Packet` and `Frame` say what uIP sends; here it is put into the packet buffer field by
field, as the labels from `tcp_send` on and `uip_arp.c` do it, with the checksums of
`uip_arch.c`.  The processor has the low byte of a word first and adds up the words as it
finds them; the fields are in network order.  A received frame leaves its traces: `reset` and
the answer to a ping are made of the frame they answer, and the urgent pointer is never written.
-/
import OpenMptcpRouter.Lib.OnesComplement
import OpenMptcpRouter.Uip.Arp

namespace Uip

open OnesComplement
open Httpd (Fs)

/-! ### Fields of the buffer -/

def Buf.put (b : Buf) (i : ℕ) (x : UInt8) : Buf := Function.update b i x

/-- A 16-bit field in network order. -/
def Buf.put16 (b : Buf) (i v : ℕ) : Buf :=
  (b.put i (UInt8.ofNat (v / 256))).put (i + 1) (UInt8.ofNat v)

def Buf.put32 (b : Buf) (i v : ℕ) : Buf := (b.put16 i (v / 2 ^ 16)).put16 (i + 2) v

/-- A word of the processor. -/
def Buf.putWord (b : Buf) (i v : ℕ) : Buf :=
  (b.put i (UInt8.ofNat v)).put (i + 1) (UInt8.ofNat (v / 256))

/-- `memcpy` of an Ethernet address. -/
def Buf.putAddr (b : Buf) (i : ℕ) (mac : EthAddr) : Buf :=
  fun k => if i ≤ k ∧ k < i + 6 then mac.getD (k - i) 0 else b k

/-- A word as the processor reads it. -/
def word (b : Buf) (i : ℕ) : ℕ := (b i).toNat + 256 * (b (i + 1)).toNat

/-- `htons`. -/
def htons : ℕ → ℕ := swap 256

/-! ### Checksums -/

/-- `uip_chksum`. -/
def uipChksum (data : List UInt8) : ℕ := htons (chksum 0 data)

/-- `uip_ipchksum`, as a word. -/
def ipchksumWord (b : Buf) : ℕ := uipChksum (bytesAt b llhLen 20)

/-- `uip_tcpchksum`, as a word, with the data at `uip_appdata`. -/
def tcpchksumWord (b appdata : Buf) : ℕ :=
  let hsum := uipChksum (bytesAt b (20 + llhLen) 20)
  let sum := uipChksum (bytesAt appdata 0 (u16 (b.ipLen - 40)))
  [hsum, word b 26, word b 28, word b 30, word b 32, htons 6, htons (u16 (b.ipLen - 20))].foldl
    onesAdd sum

/-! ### Sending -/

/-- What lies behind the headers in the buffer. -/
def Buf.behind (b : Buf) : Buf := fun k => b (40 + llhLen + k)

/-- What `uip_process` leaves behind: `uip_buf`, `uip_appdata` and `uip_len`. -/
structure Outgoing where
  buf : Buf
  appdata : Buf
  len : ℕ

/-- Label `tcp_send_noconn`; `ipid` is the counter after it has been increased. -/
def Buf.tcpSendNoconn (b appdata : Buf) (len ipid : ℕ) : Outgoing :=
  let b := (b.put16 16 len).put16 50 0
  let b := b.putWord 50 (0xffff - tcpchksumWord b appdata)
  let b := ((b.put 14 0x45).put 15 0).put16 20 0
  let b := ((b.put 22 255).put16 18 ipid).put16 24 0
  ⟨b.putWord 24 (0xffff - ipchksumWord b), appdata, len⟩

/-- Label `tcp_send`. -/
def Buf.tcpSend (b appdata : Buf) (hostaddr : ℕ) (c : Conn) (len ipid : ℕ) : Outgoing :=
  let b := ((b.put32 42 c.rcvNxt).put32 38 c.sndNxt).put 23 6
  let b := (b.put16 34 c.lport).put16 36 c.rport
  let b := (b.put32 26 hostaddr).put32 30 c.ripaddr
  -- `UIP_RECEIVE_WINDOW`
  (b.put16 48 3000).tcpSendNoconn appdata len ipid

/-- Label `tcp_send_noopts`, reached with the given flags. -/
def Buf.tcpSendNoopts (b appdata : Buf) (hostaddr : ℕ) (c : Conn) (flags : UInt8) (len ipid : ℕ) :
    Outgoing :=
  ((b.put 47 flags).put 46 0x50).tcpSend appdata hostaddr c len ipid

/-- Label `tcp_send_synack`. -/
def Buf.tcpSendSynack (b : Buf) (hostaddr : ℕ) (c : Conn) (ipid : ℕ) : Outgoing :=
  let b := ((b.put 47 (tcpSyn ||| tcpAck)).put 54 2).put 55 4
  let b := (b.put16 56 tcpMss).put 46 0x60
  b.tcpSend b.behind hostaddr c 44 ipid

/-- Label `reset`, behind the check. -/
def Buf.sendReset (b : Buf) (ipid : ℕ) : Outgoing :=
  let b' := (b.put 47 (tcpRst ||| tcpAck)).put 46 0x50
  let b' := (b'.put32 38 b.ackno).put32 42 (add32 b.seqno 1)
  let b' := (b'.put16 34 b.destport).put16 36 b.srcport
  let b' := (b'.put32 26 b.destipaddr).put32 30 b.srcipaddr
  b'.tcpSendNoconn b.behind 40 ipid

/-- The checksum of an echo request, made that of the reply. -/
def echoSum (sum : ℕ) : ℕ :=
  if htons (0xffff - 0x0800) ≤ sum then (sum + htons 0x0800 + 1) % 2 ^ 16
  else (sum + htons 0x0800) % 2 ^ 16

/-- The answer to a ping. -/
def Buf.echoReply (b : Buf) : Outgoing :=
  let b' := (b.put 34 0).putWord 36 (echoSum (word b 36))
  ⟨(b'.put32 30 b.srcipaddr).put32 26 b.destipaddr, b.behind, b.ipLen⟩

/-- The packet connection `i` of `conns` sends, or no connection (`reset`); `mem` is what
the memory holds behind the data of the application. -/
def Packet.outgoing (hostaddr : ℕ) (conns : Fin 2 → Conn) (i : Option (Fin 2)) (b mem : Buf)
    (ipid : ℕ) : Packet → Outgoing
  | .echoReply => b.echoReply
  | .tcp flags _ _ data =>
    match i with
    | none => b.sendReset ipid
    | some i =>
      if flags = tcpSyn ||| tcpAck then b.tcpSendSynack hostaddr (conns i) ipid
      else if flags = tcpAck ||| tcpPsh then
        b.tcpSendNoopts (fun k => data.getD k (mem k)) hostaddr (conns i) flags
          (40 + (conns i).len) ipid
      else b.tcpSendNoopts b.behind hostaddr (conns i) flags 40 ipid

/-! ### Ethernet -/

/-- `NetSendHttpd`. -/
def netSendHttpd (b appdata : Buf) (len : ℕ) : List UInt8 :=
  (List.range len).map fun i => if i < 40 + llhLen then b i else appdata (i - 40 - llhLen)

/-- `uip_arp_out`, when the next hop is in the cache. -/
def Buf.ethOut (b : Buf) (mac dest : EthAddr) : Buf :=
  ((b.putAddr 0 dest).putAddr 6 mac).put16 12 0x0800

/-- `uip_arp_out`, when it is not. -/
def Buf.arpRequest (b : Buf) (mac : EthAddr) (hostaddr target : ℕ) : Buf :=
  let b := (b.putAddr 0 (List.replicate 6 0xff)).putAddr 32 (List.replicate 6 0)
  let b := (b.putAddr 6 mac).putAddr 22 mac
  let b := ((b.put32 38 target).put32 28 hostaddr).put16 20 1
  let b := ((b.put16 14 1).put16 16 0x0800).put 18 6
  (b.put 19 4).put16 12 0x0806

/-- `uip_arp_arpin`, for a request. -/
def Buf.arpReply (b : Buf) (mac : EthAddr) (hostaddr : ℕ) : Buf :=
  let b' := ((b.put16 20 2).putAddr 32 b.shwaddr).putAddr 22 mac
  let b' := (b'.putAddr 6 mac).putAddr 0 b.shwaddr
  ((b'.put32 38 b.sipaddr).put32 28 hostaddr).put16 12 0x0806

/-- `uip_arp_out` and `NetSendHttpd`. -/
def Outgoing.send (o : Outgoing) (a : Arp) (mac : EthAddr) (hostaddr : ℕ) : List UInt8 :=
  let hop := nextHop hostaddr o.buf.destipaddr
  match a.lookup hop with
  | some dest => netSendHttpd (o.buf.ethOut mac dest) o.appdata (o.len + llhLen)
  | none =>
    let b := o.buf.arpRequest mac hostaddr hop
    netSendHttpd b b.behind 42

/-! ### Reading what was written -/

section Fields

variable {b : Buf} {i j v : ℕ} {x : UInt8}

theorem Buf.put_self (b : Buf) (i : ℕ) (x : UInt8) : b.put i x i = x := Function.update_self ..

theorem Buf.put_of_ne (h : j ≠ i) : b.put i x j = b j := Function.update_of_ne h ..

theorem be16_put (h : j ≠ i ∧ j + 1 ≠ i) : be16 (b.put i x) j = be16 b j := by
  rw [be16, be16, Buf.put_of_ne h.1, Buf.put_of_ne h.2]

theorem Buf.put16_of_ne (h : j ≠ i ∧ j ≠ i + 1) : b.put16 i v j = b j := by
  rw [Buf.put16, Buf.put_of_ne h.2, Buf.put_of_ne h.1]

theorem Buf.putWord_of_ne (h : j ≠ i ∧ j ≠ i + 1) : b.putWord i v j = b j := by
  rw [Buf.putWord, Buf.put_of_ne h.2, Buf.put_of_ne h.1]

theorem be16_put16_mod (b : Buf) (i v : ℕ) : be16 (b.put16 i v) i = v % 2 ^ 16 := by
  rw [be16, Buf.put16, Buf.put_of_ne (by omega), Buf.put_self, Buf.put_self]
  have hhigh : (UInt8.ofNat (v / 256)).toNat = v / 256 % 256 := UInt8.toNat_ofNat'
  have hlow : (UInt8.ofNat v).toNat = v % 256 := UInt8.toNat_ofNat'
  omega

theorem be16_put16_self (hv : v < 2 ^ 16) : be16 (b.put16 i v) i = v := by
  rw [be16_put16_mod, Nat.mod_eq_of_lt hv]

theorem be16_put16 (h : j + 1 < i ∨ i + 1 < j) : be16 (b.put16 i v) j = be16 b j := by
  rw [Buf.put16, be16_put (by omega), be16_put (by omega)]

/-- A word that was written is read in network order. -/
theorem be16_putWord_self (hv : v < 2 ^ 16) : be16 (b.putWord i v) i = htons v := by
  rw [be16, Buf.putWord, Buf.put_of_ne (by omega), Buf.put_self, Buf.put_self]
  have hhigh : (UInt8.ofNat (v / 256)).toNat = v / 256 % 256 := UInt8.toNat_ofNat'
  have hlow : (UInt8.ofNat v).toNat = v % 256 := UInt8.toNat_ofNat'
  rw [htons, swap]
  omega

theorem be16_putWord (h : j + 1 < i ∨ i + 1 < j) : be16 (b.putWord i v) j = be16 b j := by
  rw [Buf.putWord, be16_put (by omega), be16_put (by omega)]

theorem be16_put32 (h : j + 1 < i ∨ i + 3 < j) : be16 (b.put32 i v) j = be16 b j := by
  rw [Buf.put32, be16_put16 (by omega), be16_put16 (by omega)]

theorem Buf.put32_of_ne (h : j < i ∨ i + 3 < j) : b.put32 i v j = b j := by
  rw [Buf.put32, Buf.put16_of_ne (by omega), Buf.put16_of_ne (by omega)]

theorem be32_put (h : j + 3 < i ∨ i < j) : be32 (b.put i x) j = be32 b j := by
  rw [be32, be32, be16_put (by omega), be16_put (by omega)]

theorem be32_put16 (h : j + 3 < i ∨ i + 1 < j) : be32 (b.put16 i v) j = be32 b j := by
  rw [be32, be32, be16_put16 (by omega), be16_put16 (by omega)]

theorem be32_put32 (h : j + 3 < i ∨ i + 3 < j) : be32 (b.put32 i v) j = be32 b j := by
  rw [be32, be32, be16_put32 (by omega), be16_put32 (by omega)]

theorem be32_put32_self (hv : v < 2 ^ 32) : be32 (b.put32 i v) i = v := by
  have hlow : be16 (b.put32 i v) (i + 2) = v % 2 ^ 16 := by
    rw [Buf.put32, be16_put16_mod]
  have hhigh : be16 (b.put32 i v) i = v / 2 ^ 16 := by
    rw [Buf.put32, be16_put16 (by omega), be16_put16_self (by omega)]
  rw [be32, hlow, hhigh]
  omega

theorem be16_lt (b : Buf) (i : ℕ) : be16 b i < 2 ^ 16 := by
  have h := (b i).toNat_lt
  have h' := (b (i + 1)).toNat_lt
  rw [be16]
  omega

theorem be32_lt (b : Buf) (i : ℕ) : be32 b i < 2 ^ 32 := by
  have h := be16_lt b i
  have h' := be16_lt b (i + 2)
  rw [be32]
  omega

theorem be32_congr {b' : Buf} (h : ∀ k < 4, b' (i + k) = b (i + k)) : be32 b' i = be32 b i := by
  rw [be32, be32, be16, be16, be16, be16, h 1 (by decide), h 2 (by decide),
    show b' i = b i from h 0 (by decide), show b' (i + 2 + 1) = b (i + 2 + 1) from h 3 (by decide)]

end Fields

/-! ### Sums -/

section Sums

variable {b appdata : Buf} {s t : ℕ}

/-- The plain sum of the words of some bytes, in network order. -/
def wordSum : List UInt8 → ℕ
  | [] => 0
  | [x] => 256 * x.toNat
  | x :: y :: rest => 256 * x.toNat + y.toNat + wordSum rest

theorem onesAdd_eq (hs : s ≤ 0xffff) (ht : t ≤ 0xffff) : onesAdd s t = fold 0xffff (s + t) := by
  rw [onesAdd]
  by_cases h : s + t < 2 ^ 16
  · rw [if_pos h, fold_of_le (by omega)]
  · rw [if_neg h, fold_of_ne (by omega)]
    omega

theorem foldl_onesAdd (l : List ℕ) (hs : s ≤ 0xffff) (hl : ∀ t ∈ l, t ≤ 0xffff) :
    l.foldl onesAdd s = fold 0xffff (s + l.sum) := by
  induction l generalizing s with
  | nil => exact (fold_of_le hs).symm
  | cons t l ih =>
    obtain ⟨ht, hl⟩ := List.forall_mem_cons.mp hl
    rw [List.foldl_cons, onesAdd_eq hs ht, ih (fold_le (by decide) _) hl, fold_add, List.sum_cons,
      Nat.add_assoc]

theorem chksum_eq (data : List UInt8) (hs : s ≤ 0xffff) :
    chksum s data = fold 0xffff (s + wordSum data) := by
  induction data using wordSum.induct generalizing s with
  | case1 => exact (fold_of_le hs).symm
  | case2 x =>
    have hx := x.toNat_lt
    rw [chksum, wordSum, onesAdd_eq hs (by omega)]
  | case3 x y rest ih =>
    have hx := x.toNat_lt
    have hy := y.toNat_lt
    rw [chksum, wordSum, onesAdd_eq hs (by omega), ih (fold_le (by decide) _), fold_add,
      Nat.add_assoc]

theorem htons_fold (n : ℕ) : htons (fold 0xffff n) = fold 0xffff (256 * n) :=
  have hbase : 1 < 256 := by decide
  fold_swap hbase n

theorem uipChksum_eq (data : List UInt8) : uipChksum data = fold 0xffff (256 * wordSum data) := by
  rw [uipChksum, chksum_eq data (Nat.zero_le _), Nat.zero_add, htons_fold]

theorem htons_of_lt {v : ℕ} (hv : v < 2 ^ 16) : htons v = fold 0xffff (256 * v) := by
  rw [← htons_fold, fold_of_le (by omega)]

theorem word_eq (b : Buf) (i : ℕ) : word b i = htons (be16 b i) := by
  have h := (b i).toNat_lt
  have h' := (b (i + 1)).toNat_lt
  rw [word, htons, swap, be16]
  omega

theorem bytesAt_add_two (b : Buf) (off n : ℕ) :
    bytesAt b off (n + 2) = b off :: b (off + 1) :: bytesAt b (off + 2) n := by
  rw [bytesAt, List.range_succ_eq_map, List.map_cons, List.map_map, List.range_succ_eq_map,
    List.map_cons, List.map_map, bytesAt]
  refine congrArg₂ _ rfl (congrArg₂ _ rfl (List.map_congr_left fun k _ => ?_))
  exact congrArg b (by simp; omega)

/-- The sum of a header goes by its fields. -/
theorem wordSum_bytesAt (b : Buf) (off n : ℕ) :
    wordSum (bytesAt b off (2 * n)) = ((List.range n).map fun k => be16 b (off + 2 * k)).sum := by
  induction n generalizing off with
  | zero => rfl
  | succ n ih =>
    rw [Nat.mul_succ, bytesAt_add_two, wordSum, ih, List.range_succ_eq_map, List.map_cons,
      List.sum_cons, List.map_map]
    refine congrArg₂ _ rfl (congrArg List.sum (List.map_congr_left fun k _ => ?_))
    exact congrArg (be16 b) (by simp; omega)

theorem htons_le (hs : s ≤ 0xffff) : htons s ≤ 0xffff := by
  rw [htons, swap]
  omega

/-- Words are added up in either order. -/
theorem onesAdd_htons (hs : s ≤ 0xffff) (ht : t ≤ 0xffff) :
    onesAdd (htons s) (htons t) = htons (onesAdd s t) := by
  rw [onesAdd_eq (htons_le hs) (htons_le ht), onesAdd_eq hs ht, htons_fold,
    htons_of_lt (Nat.lt_succ_of_le hs), htons_of_lt (Nat.lt_succ_of_le ht), fold_add, Nat.add_comm,
    fold_add, Nat.mul_add, Nat.add_comm]

theorem foldl_onesAdd_htons (l : List ℕ) (hs : s ≤ 0xffff) (hl : ∀ t ∈ l, t ≤ 0xffff) :
    (l.map htons).foldl onesAdd (htons s) = htons (l.foldl onesAdd s) := by
  induction l generalizing s with
  | nil => rfl
  | cons t l ih =>
    obtain ⟨ht, hl⟩ := List.forall_mem_cons.mp hl
    have hsum : onesAdd s t ≤ 0xffff := by
      rw [onesAdd_eq hs ht]
      exact fold_le (by decide) _
    rw [List.map_cons, List.foldl_cons, List.foldl_cons, onesAdd_htons hs ht, ih hsum hl]

/-- What the checksum of a segment adds to the sum of its data. -/
def tcpWords (b : Buf) : List ℕ :=
  [chksum 0 (bytesAt b (20 + llhLen) 20), be16 b 26, be16 b 28, be16 b 30, be16 b 32, 6,
    u16 (b.ipLen - 20)]

theorem chksum_le (data : List UInt8) : chksum 0 data ≤ 0xffff := by
  rw [chksum_eq data (Nat.zero_le _)]
  exact fold_le (by decide) _

theorem tcpWords_le (b : Buf) : ∀ t ∈ tcpWords b, t ≤ 0xffff := by
  have hword : ∀ i, be16 b i ≤ 0xffff := fun i => Nat.le_of_lt_succ (be16_lt b i)
  have hlen : u16 (b.ipLen - 20) ≤ 0xffff := Nat.le_of_lt_succ (u16_lt _)
  intro t ht
  simp only [tcpWords, List.mem_cons, List.not_mem_nil, or_false] at ht
  rcases ht with rfl | rfl | rfl | rfl | rfl | rfl | rfl
  · exact chksum_le _
  · exact hword 26
  · exact hword 28
  · exact hword 30
  · exact hword 32
  · decide
  · exact hlen

/-- All that `uip_tcpchksum` adds up. -/
def tcpTotal (b appdata : Buf) : ℕ :=
  wordSum (bytesAt appdata 0 (u16 (b.ipLen - 40))) + (wordSum (bytesAt b 34 20) +
    (be16 b 26 + be16 b 28 + be16 b 30 + be16 b 32 + 6 + u16 (b.ipLen - 20)))

theorem foldl_tcpWords (b appdata : Buf) :
    (tcpWords b).foldl onesAdd (chksum 0 (bytesAt appdata 0 (u16 (b.ipLen - 40)))) =
      fold 0xffff (tcpTotal b appdata) := by
  rw [foldl_onesAdd _ (chksum_le _) (tcpWords_le b), chksum_eq _ (Nat.zero_le _), fold_add,
    tcpWords, chksum_eq _ (Nat.zero_le _), List.sum_cons, Nat.add_left_comm, fold_add, tcpTotal]
  simp only [List.sum_cons, List.sum_nil]
  show fold 0xffff (0 + wordSum (bytesAt b 34 20) + _) = _
  refine congrArg _ ?_
  omega

theorem bytesAt_behind (b : Buf) (n : ℕ) : bytesAt b (40 + llhLen) n = bytesAt b.behind 0 n :=
  List.map_congr_left fun k _ => congrArg b (by omega)

theorem uipTcpchksum_eq (b : Buf) : uipTcpchksum b = fold 0xffff (tcpTotal b b.behind) := by
  rw [← foldl_tcpWords, ← bytesAt_behind]
  rfl

/-- **The sum of the words of the processor** is the sum in network order, swapped. -/
theorem tcpchksumWord_eq (b appdata : Buf) :
    tcpchksumWord b appdata = htons (fold 0xffff (tcpTotal b appdata)) := by
  rw [← foldl_tcpWords, ← foldl_onesAdd_htons _ (chksum_le _) (tcpWords_le b), tcpchksumWord,
    word_eq, word_eq, word_eq, word_eq]
  rfl

theorem ipchksumWord_eq (b : Buf) :
    ipchksumWord b = htons (fold 0xffff (wordSum (bytesAt b 14 20))) := by
  rw [ipchksumWord, uipChksum_eq, htons_fold]
  rfl

theorem uipIpchksum_eq (b : Buf) : uipIpchksum b = fold 0xffff (wordSum (bytesAt b 14 20)) := by
  rw [uipIpchksum, chksum_eq _ (Nat.zero_le _), Nat.zero_add]
  rfl

/-- What `~` makes of a word, read in network order. -/
theorem htons_complement {v : ℕ} (hv : v ≤ 0xffff) : htons (0xffff - htons v) = 0xffff - v := by
  simp only [htons, swap]
  omega

end Sums

/-! ### What has been sent -/

section Headers

variable {b b' appdata : Buf} {i j v len ipid hostaddr : ℕ} {c : Conn}

theorem wordSum_header (b : Buf) (off : ℕ) : wordSum (bytesAt b off 20) =
    be16 b off + be16 b (off + 2) + be16 b (off + 4) + be16 b (off + 6) + be16 b (off + 8) +
      be16 b (off + 10) + be16 b (off + 12) + be16 b (off + 14) + be16 b (off + 16) +
      be16 b (off + 18) := by
  rw [wordSum_bytesAt b off 10]
  simp only [List.range_succ, List.range_zero, List.nil_append, List.map_append, List.map_cons,
    List.map_nil, List.sum_append, List.sum_cons, List.sum_nil, Nat.mul_zero, Nat.add_zero,
    Nat.reduceMul]

theorem be16_congr (h : b' i = b i) (h' : b' (i + 1) = b (i + 1)) : be16 b' i = be16 b i := by
  rw [be16, be16, h, h']

/-- The fields the checksum of a segment goes by. -/
theorem tcpTotal_congr (h : ∀ j, j = 16 ∨ j = 17 ∨ 26 ≤ j ∧ j < 54 → b' j = b j) :
    tcpTotal b' appdata = tcpTotal b appdata := by
  have hword : ∀ j, 26 ≤ j ∧ j < 53 → be16 b' j = be16 b j := fun j hj =>
    be16_congr (h j (by omega)) (h (j + 1) (by omega))
  have hlen : b'.ipLen = b.ipLen := be16_congr (h 16 (by omega)) (h 17 (by omega))
  rw [tcpTotal, tcpTotal, hlen, wordSum_header, wordSum_header]
  simp (disch := omega) only [hword]

/-- The checksum of a segment is added to what is added up. -/
theorem tcpTotal_putWord (hzero : be16 b 50 = 0) (hv : v < 2 ^ 16) :
    tcpTotal (b.putWord 50 v) appdata = tcpTotal b appdata + htons v := by
  have hlen : (b.putWord 50 v).ipLen = b.ipLen := be16_putWord (by omega)
  rw [tcpTotal, tcpTotal, hlen, wordSum_header, wordSum_header]
  simp (disch := omega) only [be16_putWord]
  rw [be16_putWord_self hv, hzero]
  omega

theorem wordSum_putWord (hzero : be16 b 24 = 0) (hv : v < 2 ^ 16) :
    wordSum (bytesAt (b.putWord 24 v) 14 20) = wordSum (bytesAt b 14 20) + htons v := by
  rw [wordSum_header, wordSum_header]
  simp (disch := omega) only [be16_putWord]
  rw [be16_putWord_self hv, hzero]
  omega

/-- A segment with its checksums right. -/
structure Outgoing.Right (o : Outgoing) : Prop where
  vhl : o.buf.vhl = 0x45
  whole : o.buf 20 = 0 ∧ o.buf 21 = 0
  ipLen : o.buf.ipLen = o.len
  ipchksum : uipIpchksum o.buf = 0xffff
  tcpchksum : fold 0xffff (tcpTotal o.buf o.appdata) = 0xffff

/-- **Label `tcp_send_noconn`** makes the checksums right and leaves the rest as it is. -/
theorem tcpSendNoconn_spec (b appdata : Buf) (ipid : ℕ) (hlen : len < 2 ^ 16) :
    (b.tcpSendNoconn appdata len ipid).Right ∧
      ∀ j, j < 14 ∨ j = 23 ∨ 26 ≤ j ∧ j < 50 ∨ 52 ≤ j →
        (b.tcpSendNoconn appdata len ipid).buf j = b j := by
  -- the buffer with the checksum of the segment, and with the IP header but its checksum
  obtain ⟨b₁, hb₁⟩ : ∃ b₁, b₁ = (b.put16 16 len).put16 50 0 := ⟨_, rfl⟩
  obtain ⟨b₂, hb₂⟩ : ∃ b₂, b₂ = b₁.putWord 50 (0xffff - tcpchksumWord b₁ appdata) := ⟨_, rfl⟩
  obtain ⟨b₃, hb₃⟩ : ∃ b₃, b₃ = (((((b₂.put 14 0x45).put 15 0).put16 20 0).put 22 255).put16 18
    ipid).put16 24 0 := ⟨_, rfl⟩
  obtain ⟨v, hv⟩ : ∃ v, v = 0xffff - ipchksumWord b₃ := ⟨_, rfl⟩
  have hsend : b.tcpSendNoconn appdata len ipid =
      ⟨b₃.putWord 24 v, appdata, len⟩ := by
    rw [hv, hb₃, hb₂, hb₁]
    rfl
  have hfrom₃ : ∀ j, j < 14 ∨ j = 16 ∨ j = 17 ∨ j = 23 ∨ 26 ≤ j →
      (b₃.putWord 24 v) j = b₂ j := by
    intro j hj
    rw [Buf.putWord_of_ne (by omega), hb₃, Buf.put16_of_ne (by omega), Buf.put16_of_ne (by omega),
      Buf.put_of_ne (by omega), Buf.put16_of_ne (by omega), Buf.put_of_ne (by omega),
      Buf.put_of_ne (by omega)]
  have hsum : tcpchksumWord b₁ appdata ≤ 0xffff := by
    rw [tcpchksumWord_eq]
    exact htons_le (fold_le (by decide) _)
  have hsum' : ipchksumWord b₃ ≤ 0xffff := by
    rw [ipchksumWord_eq]
    exact htons_le (fold_le (by decide) _)
  rw [hsend]
  refine ⟨⟨?_, ?_, ?_, ?_, ?_⟩, ?_⟩
  · show (b₃.putWord 24 v) 14 = 0x45
    rw [Buf.putWord_of_ne (by omega), hb₃, Buf.put16_of_ne (by omega), Buf.put16_of_ne (by omega),
      Buf.put_of_ne (by omega), Buf.put16_of_ne (by omega), Buf.put_of_ne (by omega), Buf.put_self]
  · show (b₃.putWord 24 v) 20 = 0 ∧ (b₃.putWord 24 v) 21 = 0
    rw [Buf.putWord_of_ne (by omega), Buf.putWord_of_ne (by omega), hb₃, Buf.put16_of_ne (by omega),
      Buf.put16_of_ne (by omega), Buf.put16_of_ne (by omega), Buf.put16_of_ne (by omega),
      Buf.put_of_ne (by omega), Buf.put_of_ne (by omega)]
    exact ⟨rfl, rfl⟩
  · show be16 (b₃.putWord 24 v) 16 = len
    rw [be16_congr (hfrom₃ 16 (by omega)) (hfrom₃ 17 (by omega)), hb₂, be16_putWord (by omega), hb₁,
      be16_put16 (by omega), be16_put16_self hlen]
  · show uipIpchksum (b₃.putWord 24 v) = 0xffff
    have hzero : be16 b₃ 24 = 0 := by
      rw [hb₃, be16_put16_self (by decide)]
    rw [uipIpchksum_eq, wordSum_putWord hzero (by omega), hv, ipchksumWord_eq,
      htons_complement (fold_le (by decide) _), fold_complement (by decide)]
  · show fold 0xffff (tcpTotal (b₃.putWord 24 v) appdata) = 0xffff
    have hzero : be16 b₁ 50 = 0 := by
      rw [hb₁, be16_put16_self (by decide)]
    rw [tcpTotal_congr fun j hj => hfrom₃ j (by omega), hb₂, tcpTotal_putWord hzero (by omega),
      tcpchksumWord_eq, htons_complement (fold_le (by decide) _), fold_complement (by decide)]
  · intro j hj
    show (b₃.putWord 24 v) j = b j
    rw [hfrom₃ j (by omega), hb₂, Buf.putWord_of_ne (by omega), hb₁, Buf.put16_of_ne (by omega),
      Buf.put16_of_ne (by omega)]

/-- A segment from `src` to `dst`. -/
structure Outgoing.Segment (o : Outgoing) (src dst sport dport seqno ackno wnd : ℕ)
    (flags : UInt8) : Prop extends o.Right where
  proto : o.buf.proto = 6
  srcipaddr : o.buf.srcipaddr = src
  destipaddr : o.buf.destipaddr = dst
  srcport : o.buf.srcport = sport
  destport : o.buf.destport = dport
  seqno : o.buf.seqno = seqno
  ackno : o.buf.ackno = ackno
  wnd : o.buf.wnd = wnd
  flags : o.buf.flags = flags

/-- The fields are those of the buffer before. -/
theorem segment_noconn (b appdata : Buf) (ipid : ℕ) (hlen : len < 2 ^ 16) (hproto : b.proto = 6) :
    (b.tcpSendNoconn appdata len ipid).Segment b.srcipaddr b.destipaddr b.srcport b.destport
      b.seqno b.ackno b.wnd b.flags := by
  obtain ⟨hright, hsame⟩ := tcpSendNoconn_spec b appdata ipid hlen
  exact
    { toRight := hright
      proto := (hsame 23 (by omega)).trans hproto
      srcipaddr := be32_congr fun k hk => hsame (26 + k) (by omega)
      destipaddr := be32_congr fun k hk => hsame (30 + k) (by omega)
      srcport := be16_congr (hsame 34 (by omega)) (hsame 35 (by omega))
      destport := be16_congr (hsame 36 (by omega)) (hsame 37 (by omega))
      seqno := be32_congr fun k hk => hsame (38 + k) (by omega)
      ackno := be32_congr fun k hk => hsame (42 + k) (by omega)
      wnd := be16_congr (hsame 48 (by omega)) (hsame 49 (by omega))
      flags := hsame 47 (by omega) }

/-- The numbers of a connection fit their fields. -/
structure Conn.Sized (c : Conn) : Prop where
  ripaddr : c.ripaddr < 2 ^ 32
  lport : c.lport < 2 ^ 16
  rport : c.rport < 2 ^ 16
  rcvNxt : c.rcvNxt < 2 ^ 32
  sndNxt : c.sndNxt < 2 ^ 32
  len : c.len ≤ tcpMss
  mss : c.mss ≤ c.initialmss
  initialmss : c.initialmss ≤ tcpMss

/-- **Label `tcp_send`.** -/
theorem tcpSend_spec (b appdata : Buf) (ipid : ℕ) (hlen : len < 2 ^ 16) (hhost : hostaddr < 2 ^ 32)
    (hc : c.Sized) :
    (b.tcpSend appdata hostaddr c len ipid).Segment hostaddr c.ripaddr c.lport c.rport c.sndNxt
        c.rcvNxt 3000 b.flags ∧
      ∀ j, j = 46 ∨ 54 ≤ j → (b.tcpSend appdata hostaddr c len ipid).buf j = b j := by
  obtain ⟨b', hb'⟩ : ∃ b', b' = (((((((b.put32 42 c.rcvNxt).put32 38 c.sndNxt).put 23 6).put16 34
    c.lport).put16 36 c.rport).put32 26 hostaddr).put32 30 c.ripaddr).put16 48 3000 := ⟨_, rfl⟩
  have hsend : b.tcpSend appdata hostaddr c len ipid = b'.tcpSendNoconn appdata len ipid := by
    rw [hb']
    rfl
  have hsame : ∀ j, j = 46 ∨ j = 47 ∨ 54 ≤ j → b' j = b j := by
    intro j hj
    rw [hb', Buf.put16_of_ne (by omega), Buf.put32_of_ne (by omega), Buf.put32_of_ne (by omega),
      Buf.put16_of_ne (by omega), Buf.put16_of_ne (by omega), Buf.put_of_ne (by omega),
      Buf.put32_of_ne (by omega), Buf.put32_of_ne (by omega)]
  have hproto : b'.proto = 6 := by
    show b' 23 = 6
    rw [hb', Buf.put16_of_ne (by omega), Buf.put32_of_ne (by omega), Buf.put32_of_ne (by omega),
      Buf.put16_of_ne (by omega), Buf.put16_of_ne (by omega), Buf.put_self]
  have hsrc : b'.srcipaddr = hostaddr := by
    rw [hb', Buf.srcipaddr, be32_put16 (by omega), be32_put32 (by omega), be32_put32_self hhost]
  have hdst : b'.destipaddr = c.ripaddr := by
    rw [hb', Buf.destipaddr, be32_put16 (by omega), be32_put32_self hc.ripaddr]
  have hsport : b'.srcport = c.lport := by
    rw [hb', Buf.srcport, be16_put16 (by omega), be16_put32 (by omega), be16_put32 (by omega),
      be16_put16 (by omega), be16_put16_self hc.lport]
  have hdport : b'.destport = c.rport := by
    rw [hb', Buf.destport, be16_put16 (by omega), be16_put32 (by omega), be16_put32 (by omega),
      be16_put16_self hc.rport]
  have hseqno : b'.seqno = c.sndNxt := by
    rw [hb', Buf.seqno, be32_put16 (by omega), be32_put32 (by omega), be32_put32 (by omega),
      be32_put16 (by omega), be32_put16 (by omega), be32_put (by omega), be32_put32_self hc.sndNxt]
  have hackno : b'.ackno = c.rcvNxt := by
    rw [hb', Buf.ackno, be32_put16 (by omega), be32_put32 (by omega), be32_put32 (by omega),
      be32_put16 (by omega), be32_put16 (by omega), be32_put (by omega), be32_put32 (by omega),
      be32_put32_self hc.rcvNxt]
  have hwnd : b'.wnd = 3000 := by
    rw [hb', Buf.wnd, be16_put16_self (by decide)]
  have hflags : b'.flags = b.flags := hsame 47 (by omega)
  have hsegment := segment_noconn b' appdata ipid hlen hproto
  rw [hsrc, hdst, hsport, hdport, hseqno, hackno, hwnd, hflags] at hsegment
  rw [hsend]
  refine ⟨hsegment, fun j hj => ?_⟩
  rw [(tcpSendNoconn_spec b' appdata ipid hlen).2 j (by omega), hsame j (by omega)]

/-- **Label `reset`.** -/
theorem sendReset_spec (b : Buf) (ipid : ℕ) (hproto : b.proto = 6) :
    (b.sendReset ipid).Segment b.destipaddr b.srcipaddr b.destport b.srcport b.ackno
        (add32 b.seqno 1) b.wnd (tcpRst ||| tcpAck) ∧
      (b.sendReset ipid).buf 46 = 0x50 := by
  obtain ⟨b', hb'⟩ : ∃ b', b' = (((((((b.put 47 (tcpRst ||| tcpAck)).put 46 0x50).put32 38
    b.ackno).put32 42 (add32 b.seqno 1)).put16 34 b.destport).put16 36 b.srcport).put32 26
    b.destipaddr).put32 30 b.srcipaddr := ⟨_, rfl⟩
  have hsend : b.sendReset ipid = b'.tcpSendNoconn b.behind 40 ipid := by
    rw [hb']
    rfl
  have hproto' : b'.proto = 6 := by
    show b' 23 = 6
    rw [hb', Buf.put32_of_ne (by omega), Buf.put32_of_ne (by omega), Buf.put16_of_ne (by omega),
      Buf.put16_of_ne (by omega), Buf.put32_of_ne (by omega), Buf.put32_of_ne (by omega),
      Buf.put_of_ne (by omega), Buf.put_of_ne (by omega)]
    exact hproto
  have hsrc : b'.srcipaddr = b.destipaddr := by
    rw [hb', Buf.srcipaddr, be32_put32 (by omega), be32_put32_self (show b.destipaddr < 2 ^ 32 from be32_lt b 30)]
  have hdst : b'.destipaddr = b.srcipaddr := by
    rw [hb', Buf.destipaddr, be32_put32_self (show b.srcipaddr < 2 ^ 32 from be32_lt b 26)]
  have hsport : b'.srcport = b.destport := by
    rw [hb', Buf.srcport, be16_put32 (by omega), be16_put32 (by omega), be16_put16 (by omega),
      be16_put16_self (show b.destport < 2 ^ 16 from be16_lt b 36)]
  have hdport : b'.destport = b.srcport := by
    rw [hb', Buf.destport, be16_put32 (by omega), be16_put32 (by omega),
      be16_put16_self (show b.srcport < 2 ^ 16 from be16_lt b 34)]
  have hseqno : b'.seqno = b.ackno := by
    rw [hb', Buf.seqno, be32_put32 (by omega), be32_put32 (by omega), be32_put16 (by omega),
      be32_put16 (by omega), be32_put32 (by omega), be32_put32_self (show b.ackno < 2 ^ 32 from be32_lt b 42)]
  have hackno : b'.ackno = add32 b.seqno 1 := by
    rw [hb', Buf.ackno, be32_put32 (by omega), be32_put32 (by omega), be32_put16 (by omega),
      be32_put16 (by omega), be32_put32_self (show add32 b.seqno 1 < 2 ^ 32 from Nat.mod_lt _ (by decide))]
  have hlow : ∀ j, j = 46 ∨ j = 47 → b' j = ((b.put 47 (tcpRst ||| tcpAck)).put 46 0x50) j := by
    intro j hj
    rw [hb', Buf.put32_of_ne (by omega), Buf.put32_of_ne (by omega), Buf.put16_of_ne (by omega),
      Buf.put16_of_ne (by omega), Buf.put32_of_ne (by omega), Buf.put32_of_ne (by omega)]
  have hflags : b'.flags = tcpRst ||| tcpAck := by
    show b' 47 = _
    rw [hlow 47 (by omega), Buf.put_of_ne (by omega), Buf.put_self]
  -- the window is still that of the segment that is answered
  have hwnd : b'.wnd = b.wnd := by
    rw [hb', Buf.wnd, be16_put32 (by omega), be16_put32 (by omega), be16_put16 (by omega),
      be16_put16 (by omega), be16_put32 (by omega), be16_put32 (by omega), be16_put (by omega),
      be16_put (by omega)]
    rfl
  have hsegment := segment_noconn b' b.behind ipid (show 40 < 2 ^ 16 by decide) hproto'
  rw [hsrc, hdst, hsport, hdport, hseqno, hackno, hwnd, hflags] at hsegment
  rw [hsend]
  refine ⟨hsegment, ?_⟩
  rw [(tcpSendNoconn_spec b' b.behind ipid (show 40 < 2 ^ 16 by decide)).2 46 (by omega),
    hlow 46 (by omega), Buf.put_self]

end Headers

end Uip
