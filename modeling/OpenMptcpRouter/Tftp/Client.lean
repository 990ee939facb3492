/-
What the TFTP client sends, and one round of the network loop (`net/tftp.c`, `NetLoop`).

`tftpHandler` says what a packet does to the globals and which bytes it has stored.  Here
the rest is added: the RAM, the packets `TftpSend` puts on the wire, and the timeout.

* `Client.poll` — a round of `NetLoop`: the packets `eth_rx` finds are handled one after
  the other, then the timer may go off, and only then is `net_state` looked at;
* `handleBlock_of_reading` — what a block does to a client that reads a file;
* `tftpHandler_data`, `tftpHandler_oack`, `tftpHandler_other` — what a data packet, an
  acknowledgement of options and any other packet do to it.
-/
import OpenMptcpRouter.Lib.Memory
import OpenMptcpRouter.Tftp.StoreBlock

namespace Tftp

/-! ### Sending -/

/-- A packet of the client; of a request only the opcode. -/
inductive Sent
  | request (opcode : ℕ)
  | ack (block : ℕ)
  | data (block : ℕ) (bytes : List UInt8)
  | error (code : ℕ) (text : String)
  deriving DecidableEq

/-- The globals and what they are about: the RAM, the bytes to be saved, the timeouts. -/
structure Client where
  globals : State
  ram : ℕ → UInt8
  saveAddr : ℕ
  tftpTimeoutCount : ℕ

/-- `TIMEOUT_COUNT`. -/
def timeoutCount : ℕ := 500 * 2

/-- `TftpSend`: the packet, in the globals `s`. -/
def Client.tftpPacket (c : Client) (s : State) : Sent :=
  match s.tftpState with
  | .sendRrq => .request 1
  | .sendWrq => .request 2
  | .oack | .recvWrq | .data =>
    if s.tftpWriting then
      let offset := (((s.tftpBlock : ℤ) - 1) * s.tftpBlkSize + s.tftpBlockWrapOffset) % 2 ^ 32
      .data (s.tftpBlock % 2 ^ 16)
        (Memory.slice (2 ^ 32) c.ram (c.saveAddr + offset.toNat)
          (loadBlock s s.tftpBlock s.tftpBlkSize))
    else .ack (s.tftpBlock % 2 ^ 16)
  | .tooLarge => .error 3 "File too large"
  | .badMagic => .error 2 "File has bad magic"

variable (ramSize : ℕ)

/-- `TftpHandler`, an acknowledgement: the globals it calls `TftpSend` with. -/
def ackSends (s : State) (p : Packet) : Option State :=
  if s.tftpWriting = true ∧ s.tftpFinalBlock = false ∧ s.tftpBlock = p.ntohs 2 then
    some (updateBlockNumber { s with tftpBlock := (p.ntohs 2 + 1) % 2 ^ 16 })
  else none

/-- `TftpHandler`, an acknowledgement of options: the globals it calls `TftpSend` with. -/
def oackSends (s : State) (p : Packet) : State :=
  let s := { s with tftpState := .oack, tftpRemotePort := p.src
                    tftpBlkSize := oackBlkSize p (p.len - 2) s.tftpBlkSize }
  if s.tftpWriting then
    { s with tftpState := .data, tftpBlock := (s.tftpBlock + 1) % 2 ^ 32 } else s

/-- `TftpHandler`, a data packet from the test for the first block on. -/
def blockSends (s : State) (p : Packet) : Option State :=
  if s.tftpBlock = s.tftpLastBlock then none
  else
    some (storeBlock ramSize { s with tftpLastBlock := s.tftpBlock }
      ((s.tftpBlock + 2 ^ 32 - 1) % 2 ^ 32) (p.len - 4)).1

/-- `TftpHandler`, a data packet. -/
def dataSends (s : State) (p : Packet) : Option State :=
  if p.len - 2 < 2 then none
  else
    let s := updateBlockNumber { s with tftpBlock := p.ntohs 2 }
    if AwaitsFirst s then
      let s := newTransfer { s with tftpState := .data, tftpRemotePort := p.src }
      if s.tftpBlock ≠ 1 then none else blockSends ramSize s p
    else blockSends ramSize s p

/-- The packet passes the tests in front of the `switch` of `TftpHandler`. -/
def Admitted (s : State) (p : Packet) : Prop :=
  p.dest = s.tftpOurPort ∧
    (s.tftpState = .sendRrq ∨ p.src = s.tftpRemotePort ∨ s.tftpState = .recvWrq ∨
      s.tftpState = .sendWrq) ∧ 2 ≤ p.len

instance (s : State) (p : Packet) : Decidable (Admitted s p) := by
  unfold Admitted; infer_instance

/-- `TftpHandler`: the globals it calls `TftpSend` with, if it does. -/
def handlerSends (s : State) (p : Packet) : Option State :=
  if Admitted s p then
    match p.ntohs 0 with
    | 3 => dataSends ramSize s p
    | 4 => ackSends s p
    | 6 => some (oackSends s p)
    | _ => none
  else none

/-- `update_block_number` resets the count of timeouts at block 0. -/
def countAfter (s : State) (p : Packet) (count : ℕ) : ℕ :=
  if Admitted s p ∧ (p.ntohs 0 = 3 ∧ 4 ≤ p.len ∧ p.ntohs 2 = 0 ∨
      p.ntohs 0 = 4 ∧ s.tftpWriting = true ∧ s.tftpFinalBlock = false ∧ p.ntohs 2 = 2 ^ 16 - 1)
  then 0 else count

/-! ### A round of the network loop -/

/-- The first `n` bytes of data. -/
def Packet.payload (p : Packet) (n : ℕ) : List UInt8 := (List.range n).map fun i => p.byte (4 + i)

/-- What handling packets leaves behind: the client, what was stored, what was sent. -/
structure Handled where
  client : Client
  stores : Stores := []
  sent : List Sent := []

/-- `TftpHandler`, with the RAM and what is sent. -/
def Client.handle (c : Client) (p : Packet) : Handled :=
  let r := tftpHandler ramSize c.globals p
  let c' : Client :=
    { c with
      globals := r.1
      ram := r.2.foldl (fun m st => Memory.store (2 ^ 32) m st.1 (p.payload st.2)) c.ram
      tftpTimeoutCount := countAfter c.globals p c.tftpTimeoutCount }
  { client := c', stores := r.2
    sent := ((handlerSends ramSize c.globals p).map c'.tftpPacket).toList }

/-- The packets `eth_rx` finds. -/
def Client.receive (c : Client) : List Packet → Handled
  | [] => { client := c }
  | p :: ps =>
    let h := c.handle ramSize p
    let r := h.client.receive ps
    { client := r.client, stores := h.stores ++ r.stores, sent := h.sent ++ r.sent }

/-- `TftpTimeout`. -/
def Client.timeout (c : Client) : Handled :=
  let c := { c with tftpTimeoutCount := c.tftpTimeoutCount + 1 }
  if timeoutCount < c.tftpTimeoutCount then
    { client := { c with globals := netStartAgain c.globals } }
  else if c.globals.tftpState = .recvWrq then { client := c }
  else
    { client := { c with globals := tftpSend c.globals }, sent := [c.tftpPacket c.globals] }

/-- A round of `NetLoop`.  The loop is left when `net_state` is no longer
`NETLOOP_CONTINUE`; the packets of one `eth_rx` are all handled before it is looked at. -/
def Client.poll (c : Client) (ps : List Packet) (timesOut : Bool) : Handled :=
  if c.globals.netState ≠ .continue then { client := c }
  else
    let r := c.receive ramSize ps
    if timesOut then
      let t := r.client.timeout
      { client := t.client, stores := r.stores, sent := r.sent ++ t.sent }
    else r

/-- `TftpStart` for a file to be loaded: the client that has just sent its request. -/
def Client.start (c : Client) (loadAddr ourPort : ℕ) : Handled :=
  let s := tftpStart ramSize c.globals false loadAddr 0 ourPort
  let c' := { c with globals := s, tftpTimeoutCount := 0 }
  { client := c', sent := if s.netState = .continue then [c'.tftpPacket s] else [] }

/-! ### A client that loads a file -/

section Reading

variable {ramSize} {s : State} {p : Packet} {block len : ℕ}

theorem tftpSend_of_reading (h : s.tftpWriting = false) : tftpSend s = s := by
  rw [tftpSend, if_neg]
  simp [h]

theorem storeBlock_writing :
    (storeBlock ramSize s block len).1.tftpWriting = s.tftpWriting := by
  unfold storeBlock
  dsimp only
  split <;> rfl

/-- A block that is stored, or refused; a short one completes the transfer either way. -/
theorem handleBlock_of_reading {u : State} {stores : Stores} (h : s.tftpWriting = false)
    (hnew : s.tftpBlock ≠ s.tftpLastBlock)
    (hstore : storeBlock ramSize { s with tftpLastBlock := s.tftpBlock }
      ((s.tftpBlock + 2 ^ 32 - 1) % 2 ^ 32) (p.len - 4) = (u, stores)) :
    handleBlock ramSize s p =
        ({ u with netState := if p.len - 4 < s.tftpBlkSize then .success else u.netState }, stores) ∧
      blockSends ramSize s p = some u := by
  have hwriting : u.tftpWriting = false := by
    have hkept : (storeBlock ramSize { s with tftpLastBlock := s.tftpBlock }
        ((s.tftpBlock + 2 ^ 32 - 1) % 2 ^ 32) (p.len - 4)).1.tftpWriting = s.tftpWriting :=
      storeBlock_writing
    rw [hstore] at hkept
    exact hkept.trans h
  have hsize : u.tftpBlkSize = s.tftpBlkSize := by
    rw [storeBlock] at hstore
    dsimp only at hstore
    split at hstore <;> cases hstore <;> rfl
  constructor
  · rw [handleBlock, if_neg hnew]
    dsimp only
    rw [hstore]
    dsimp only
    rw [tftpSend_of_reading hwriting, ← hsize]
    split <;> rfl
  · rw [blockSends, if_neg hnew, hstore]

/-- The globals after the test for the first block. -/
def firstBlock (s : State) (p : Packet) : State :=
  newTransfer { s with tftpBlock := p.ntohs 2, tftpState := .data, tftpRemotePort := p.src }

/-- A data packet goes on to the test for a block that comes again, as block 1 or in the
middle of a transfer, or has the transfer start again. -/
theorem tftpHandler_data (ramSize : ℕ) (hadm : Admitted s p) (hop : p.ntohs 0 = 3) (hlen : 4 ≤ p.len)
    (hblock : p.ntohs 2 ≠ 0) :
    (tftpHandler ramSize s p, handlerSends ramSize s p) =
      if AwaitsFirst s then
        if p.ntohs 2 ≠ 1 then ((netStartAgain (firstBlock s p), []), none)
        else (handleBlock ramSize (firstBlock s p) p, blockSends ramSize (firstBlock s p) p)
      else
        (handleBlock ramSize { s with tftpBlock := p.ntohs 2 } p,
          blockSends ramSize { s with tftpBlock := p.ntohs 2 } p) := by
  set s' : State := { s with tftpBlock := p.ntohs 2 } with hs'
  obtain ⟨hdest, hsrc, -⟩ := id hadm
  have hupdate : updateBlockNumber s' = s' := if_neg hblock
  have hhandler : tftpHandler ramSize s p = handleData ramSize s p := by
    rw [tftpHandler, if_neg (not_not.mpr hdest), if_neg (by tauto), if_neg (by omega), hop]
    rfl
  have hsends : handlerSends ramSize s p = dataSends ramSize s p := by
    rw [handlerSends, if_pos hadm, hop]
    rfl
  have hlong : ¬ p.len - 2 < 2 := by omega
  rw [hhandler, hsends, handleData, if_neg hlong, dataSends, if_neg hlong]
  change ((if AwaitsFirst (updateBlockNumber s') then _ else _),
    (if AwaitsFirst (updateBlockNumber s') then _ else _)) = _
  rw [hupdate]
  by_cases hfirst : AwaitsFirst s
  · have hfirst' : AwaitsFirst s' := hfirst
    rw [if_pos hfirst', if_pos hfirst', if_pos hfirst]
    by_cases hone : p.ntohs 2 = 1
    · rw [if_neg (not_not.mpr hone)]
      change ((if p.ntohs 2 ≠ 1 then _ else _), (if p.ntohs 2 ≠ 1 then _ else _)) = _
      rw [if_neg (not_not.mpr hone), if_neg (not_not.mpr hone)]
      rfl
    · rw [if_pos hone]
      change ((if p.ntohs 2 ≠ 1 then _ else _), (if p.ntohs 2 ≠ 1 then _ else _)) = _
      rw [if_pos hone, if_pos hone]
      rfl
  · have hfirst' : ¬ AwaitsFirst s' := hfirst
    rw [if_neg hfirst', if_neg hfirst', if_neg hfirst]

/-- An acknowledgement of options has the client acknowledge the last block it has. -/
theorem tftpHandler_oack (ramSize : ℕ) (h : s.tftpWriting = false) (hadm : Admitted s p) (hop : p.ntohs 0 = 6) :
    let s' := { s with tftpState := .oack, tftpRemotePort := p.src
                       tftpBlkSize := oackBlkSize p (p.len - 2) s.tftpBlkSize }
    tftpHandler ramSize s p = (s', []) ∧ handlerSends ramSize s p = some s' := by
  intro s'
  obtain ⟨hdest, hsrc, hlen⟩ := id hadm
  constructor
  · rw [tftpHandler, if_neg (not_not.mpr hdest), if_neg (by tauto), if_neg (by omega), hop]
    change (handleOack s p, ([] : Stores)) = _
    rw [handleOack]
    change (tftpSend (if s.tftpWriting then _ else s'), ([] : Stores)) = _
    rw [h, if_neg Bool.false_ne_true, tftpSend_of_reading (s := s') h]
  · rw [handlerSends, if_pos hadm, hop]
    change some (oackSends s p) = _
    rw [oackSends]
    change some (if s.tftpWriting then _ else s') = _
    rw [h, if_neg Bool.false_ne_true]

/-- A loop that keeps what it has, or takes another value, ends with what it began with or
with a value that does not depend on it. -/
theorem foldl_override {ι α : Type*} (c : ι → Prop) [DecidablePred c] (v : ι → α) (is : List ι) :
    (∀ x, is.foldl (fun x i => if c i then v i else x) x = x) ∨
      ∃ y, ∀ x, is.foldl (fun x i => if c i then v i else x) x = y := by
  induction is with
  | nil => exact Or.inl fun _ => rfl
  | cons i is ih =>
    by_cases hi : c i
    · refine Or.inr ⟨is.foldl (fun x i => if c i then v i else x) (v i), fun x => ?_⟩
      rw [List.foldl_cons, if_pos hi]
    · simp only [List.foldl_cons, if_neg hi]
      exact ih

/-- Options acknowledged once more leave the block size as it is. -/
theorem oackBlkSize_again {size : ℕ} (h : oackBlkSize p len size = block) :
    oackBlkSize p len block = block := by
  rcases foldl_override (fun i => isBlksize p (2 + i) = true)
    (fun i => simpleStrtoul ((p.pkt.drop (2 + i + 8)).map fun b => Char.ofNat b.toNat) % 2 ^ 16)
    (List.range (len - 8)) with hkeep | ⟨y, hy⟩
  · exact hkeep block
  · rw [oackBlkSize, hy] at h
    rw [oackBlkSize, hy, h]

/-- Packets that are not admitted, and of other kinds, change nothing but the state of the
network loop. -/
theorem tftpHandler_other (ramSize : ℕ) (h : s.tftpWriting = false)
    (hother : Admitted s p → p.ntohs 0 ≠ 3 ∧ p.ntohs 0 ≠ 6) :
    handlerSends ramSize s p = none ∧
      (tftpHandler ramSize s p = (s, []) ∨
        ∃ n, n ≠ .continue ∧ n ≠ .success ∧
          tftpHandler ramSize s p = ({ s with netState := n }, [])) := by
  by_cases hadm : Admitted s p
  case neg =>
    refine ⟨if_neg hadm, Or.inl ?_⟩
    rw [tftpHandler]
    by_cases hdest : p.dest = s.tftpOurPort
    case neg => rw [if_pos hdest]
    rw [if_neg (not_not.mpr hdest)]
    by_cases hsrc : s.tftpState ≠ .sendRrq ∧ p.src ≠ s.tftpRemotePort ∧
        s.tftpState ≠ .recvWrq ∧ s.tftpState ≠ .sendWrq
    · rw [if_pos hsrc]
    rw [if_neg hsrc, if_pos]
    by_contra hlen
    exact hadm ⟨hdest, by tauto, by omega⟩
  obtain ⟨hthree, hsix⟩ := hother hadm
  obtain ⟨hdest, hsrc, hlen⟩ := id hadm
  constructor
  · rw [handlerSends, if_pos hadm]
    split
    · contradiction
    · rw [ackSends, if_neg]
      simp [h]
    · contradiction
    · rfl
  rw [tftpHandler, if_neg (not_not.mpr hdest), if_neg (by tauto), if_neg (by omega)]
  split
  · contradiction
  · left
    rw [handleAck, h, if_neg Bool.false_ne_true]
  · right
    rw [handleError]
    by_cases hfatal : p.ntohs 2 = 1 ∨ p.ntohs 2 = 2
    · rw [if_pos hfatal]
      exact ⟨.fail, by decide, by decide, rfl⟩
    · rw [if_neg hfatal]
      exact ⟨.restart, by decide, by decide, rfl⟩
  · contradiction
  · left
    rfl

/-- An acknowledgement is one of the block the client is at. -/
theorem block_of_tftpPacket {c : Client} {n : ℕ} (h : c.tftpPacket s = .ack n) :
    s.tftpState ≠ .sendRrq ∧ s.tftpState ≠ .tooLarge ∧ n = s.tftpBlock % 2 ^ 16 := by
  unfold Client.tftpPacket at h
  split at h
  · cases h
  · cases h
  iterate 3
    rename_i hstate
    split at h
    · cases h
    · cases h
      exact ⟨by rw [hstate]; decide, by rw [hstate]; decide, rfl⟩
  · cases h
  · cases h

theorem handle_of_eq {c : Client} {g : State} {stores : Stores} {sends : Option State}
    (hhandler : tftpHandler ramSize c.globals p = (g, stores))
    (hsends : handlerSends ramSize c.globals p = sends) :
    ∃ c' : Client, c.handle ramSize p = ⟨c', stores, (sends.map c'.tftpPacket).toList⟩ ∧
      c'.globals = g ∧
      c'.ram = stores.foldl (fun m st => Memory.store (2 ^ 32) m st.1 (p.payload st.2)) c.ram := by
  refine ⟨(c.handle ramSize p).client, ?_, ?_, ?_⟩
  · rw [Client.handle, hsends, hhandler]
  · rw [Client.handle, hhandler]
  · rw [Client.handle, hhandler]

end Reading

end Tftp
