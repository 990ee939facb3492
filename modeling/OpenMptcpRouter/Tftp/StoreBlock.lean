/-
Where a TFTP transfer is stored.

The client keeps a block number, an offset for the wraparounds of that number and a
block size the server may choose, and `store_block` writes a block at
`load_addr + (block - 1) * TftpBlkSize + TftpBlockWrapOffset`.  Before it does, it
looks at the address behind the block: the region from `IPQ_TFTP_MAX_ADDR` to
`CONFIG_TZ_END_ADDR` and what lies above the RAM are not to be written.

* `storesClear_iff` — for one block, what the look at its end is good for: a block
  that ends behind the region may have begun inside it, and one that runs over the
  end of the address space ends at a small address;
* `run_clear_iff` — a run of the client, with any server, stays clear exactly if no
  packet of it brings such a block;
* `stores_protected` — a transfer that overwrites the top of the region.
-/
import Mathlib.Data.List.GetD
import Mathlib.Data.Nat.ModEq
import OpenMptcpRouter.Lib.CString
import OpenMptcpRouter.Lib.Digits
import OpenMptcpRouter.Lib.Run

namespace Tftp

/-- `IPQ_TFTP_MAX_ADDR`. -/
def ipqTftpMaxAddr : ℕ := 0x87000000

/-- `CONFIG_TZ_END_ADDR`. -/
def tzEndAddr : ℕ := 0x88000000

/-- `CONFIG_SYS_SDRAM_BASE`. -/
def sdramBase : ℕ := 0x80000000

/-- `CONFIG_SYS_LOAD_ADDR`. -/
def sysLoadAddr : ℕ := sdramBase + 64 * 2 ^ 20

/-- `CONFIG_SYS_SDRAM_END`, from `gd->ram_size`. -/
def sdramEnd (ramSize : ℕ) : ℕ := (sdramBase + ramSize) % 2 ^ 32

/-- `TFTP_BLOCK_SIZE`. -/
def tftpBlockSize : ℕ := 512

/-- `TFTP_SEQUENCE_SIZE`. -/
def tftpSequenceSize : ℕ := 2 ^ 16

/-- `WELL_KNOWN_PORT`. -/
def wellKnownPort : ℕ := 69

/-! ### The client -/

/-- `TftpState`. -/
inductive TftpState
  | sendRrq
  | data
  | tooLarge
  | badMagic
  | oack
  | recvWrq
  | sendWrq
  deriving DecidableEq, Repr

/-- `net_state`. -/
inductive NetState
  | continue
  | restart
  | success
  | fail
  deriving DecidableEq, Repr

/-- The globals of the client. -/
structure State where
  loadAddr : ℕ
  tftpRemotePort : ℕ
  tftpOurPort : ℕ
  tftpBlock : ℕ
  tftpLastBlock : ℕ
  tftpBlockWrap : ℕ
  tftpBlockWrapOffset : ℕ
  tftpState : TftpState
  tftpWriting : Bool
  tftpFinalBlock : Bool
  tftpBlkSize : ℕ
  netBootFileXferSize : ℕ
  netState : NetState
  deriving DecidableEq, Repr

/-- A UDP packet: the receive buffer from its payload on, `len` bytes of which are the
payload, and its ports. -/
structure Packet where
  pkt : List UInt8
  dest : ℕ
  src : ℕ
  len : ℕ

/-- A byte of the packet, or of what the buffer holds behind it. -/
def Packet.byte (p : Packet) (i : ℕ) : UInt8 := p.pkt.getD i 0

/-- `ntohs` of two bytes of the packet. -/
def Packet.ntohs (p : Packet) (i : ℕ) : ℕ := 256 * (p.byte i).toNat + (p.byte (i + 1)).toNat

/-- What a packet has the client store: an address and a length. -/
abbrev Stores := List (ℕ × ℕ)

variable (ramSize : ℕ)

/-- `store_block`. -/
def storeBlock (s : State) (block len : ℕ) : State × Stores :=
  let offset := (block * s.tftpBlkSize + s.tftpBlockWrapOffset) % 2 ^ 32
  let newsize := (offset + len) % 2 ^ 32
  let stop := (s.loadAddr + newsize) % 2 ^ 32
  if stop ≥ sdramEnd ramSize ∨ (stop ≥ ipqTftpMaxAddr ∧ stop < tzEndAddr) then
    ({ s with tftpState := .tooLarge, netState := .fail }, [])
  else
    ({ s with netBootFileXferSize := max s.netBootFileXferSize newsize },
      [((s.loadAddr + offset) % 2 ^ 32, len)])

/-- `new_transfer`. -/
def newTransfer (s : State) : State :=
  { s with tftpLastBlock := 0, tftpBlockWrap := 0, tftpBlockWrapOffset := 0,
           tftpFinalBlock := false }

/-- `load_block`: the number of bytes there are to send in a block. -/
def loadBlock (s : State) (block len : ℕ) : ℕ :=
  let offset := (((block : ℤ) - 1) * len + s.tftpBlockWrapOffset) % 2 ^ 32
  min (((s.netBootFileXferSize : ℤ) - offset) % 2 ^ 32).toNat len

/-- `update_block_number`. -/
def updateBlockNumber (s : State) : State :=
  if s.tftpBlock = 0 then
    { s with tftpBlockWrap := (s.tftpBlockWrap + 1) % 2 ^ 32
             tftpBlockWrapOffset :=
               (s.tftpBlockWrapOffset + s.tftpBlkSize * tftpSequenceSize) % 2 ^ 32 }
  else s

/-- `tftp_complete`. -/
def tftpComplete (s : State) : State := { s with netState := .success }

/-- `TftpSend`: what sending a packet leaves in the globals. -/
def tftpSend (s : State) : State :=
  if s.tftpState ∈ [.oack, .recvWrq, .data] ∧ s.tftpWriting then
    { s with tftpFinalBlock := loadBlock s s.tftpBlock s.tftpBlkSize < s.tftpBlkSize }
  else s

/-- `NetStartAgain`: the network loop starts over, at once or after a while without a handler
(`NetRestartWrap`), or gives up; no packet is handled until then. -/
def netStartAgain (s : State) : State := { s with netState := .restart }

/-- `strcmp` of the options from byte `i` on with `blksize`. -/
def isBlksize (p : Packet) (i : ℕ) : Bool :=
  (List.range 8).map (fun k => p.byte (i + k)) = CString.ascii "blksize" ++ [0]

/-- `simple_strtoul` to the base ten. -/
def simpleStrtoul (text : List Char) : ℕ :=
  match text with
  | '0' :: 'x' :: c :: cs =>
    if (Digits.digitValue c).isSome then (Digits.readDigits 16 0 (c :: cs)).1 % 2 ^ 32 else 0
  | cs => (Digits.readDigits 10 0 cs).1 % 2 ^ 32

/-- The block size an option acknowledgement leaves, `len` bytes of options. -/
def oackBlkSize (p : Packet) (len blkSize : ℕ) : ℕ :=
  (List.range (len - 8)).foldl (fun size i =>
    if isBlksize p (2 + i) then
      simpleStrtoul ((p.pkt.drop (2 + i + 8)).map fun b => Char.ofNat b.toNat) % 2 ^ 16
    else size) blkSize

/-- `TftpHandler`, an acknowledgement. -/
def handleAck (s : State) (p : Packet) : State :=
  if s.tftpWriting then
    if s.tftpFinalBlock then tftpComplete s
    else
      let block := p.ntohs 2
      let next := updateBlockNumber { s with tftpBlock := (block + 1) % 2 ^ 16 }
      if s.tftpBlock = block then tftpSend next else next
  else s

/-- `TftpHandler`, an acknowledgement of options. -/
def handleOack (s : State) (p : Packet) : State :=
  let s := { s with tftpState := .oack, tftpRemotePort := p.src
                    tftpBlkSize := oackBlkSize p (p.len - 2) s.tftpBlkSize }
  tftpSend (if s.tftpWriting then
    { s with tftpState := .data, tftpBlock := (s.tftpBlock + 1) % 2 ^ 32 } else s)

/-- `TftpHandler`, a data packet from the test for the first block on. -/
def handleBlock (s : State) (p : Packet) : State × Stores :=
  if s.tftpBlock = s.tftpLastBlock then (s, [])
  else
    let s := { s with tftpLastBlock := s.tftpBlock }
    let (s, stores) := storeBlock ramSize s ((s.tftpBlock + 2 ^ 32 - 1) % 2 ^ 32) (p.len - 4)
    let s := tftpSend s
    (if p.len - 4 < s.tftpBlkSize then tftpComplete s else s, stores)

/-- The client takes its next data packet for the first one. -/
def AwaitsFirst (s : State) : Prop := s.tftpState ∈ [.sendRrq, .oack, .recvWrq]

instance (s : State) : Decidable (AwaitsFirst s) := by unfold AwaitsFirst; infer_instance

/-- `TftpHandler`, a data packet. -/
def handleData (s : State) (p : Packet) : State × Stores :=
  if p.len - 2 < 2 then (s, [])
  else
    let s := updateBlockNumber { s with tftpBlock := p.ntohs 2 }
    if AwaitsFirst s then
      -- first block received
      let s := newTransfer { s with tftpState := .data, tftpRemotePort := p.src }
      if s.tftpBlock ≠ 1 then (netStartAgain s, []) else handleBlock ramSize s p
    else handleBlock ramSize s p

/-- `TftpHandler`, an error packet. -/
def handleError (s : State) (p : Packet) : State :=
  if p.ntohs 2 = 1 ∨ p.ntohs 2 = 2 then { s with netState := .fail } else netStartAgain s

/-- `TftpHandler`. -/
def tftpHandler (s : State) (p : Packet) : State × Stores :=
  if p.dest ≠ s.tftpOurPort then (s, [])
  else if s.tftpState ≠ .sendRrq ∧ p.src ≠ s.tftpRemotePort ∧ s.tftpState ≠ .recvWrq ∧
      s.tftpState ≠ .sendWrq then (s, [])
  else if p.len < 2 then (s, [])
  else
    match p.ntohs 0 with
    | 3 => handleData ramSize s p
    | 4 => (handleAck s p, [])
    | 5 => (handleError s p, [])
    | 6 => (handleOack s p, [])
    | _ => (s, [])

/-- `TftpStart`, with the load address and the save size of the command; `NetLoop` has cleared
the size of the file. -/
def tftpStart (s : State) (put : Bool) (loadAddr saveSize ourPort : ℕ) : State :=
  let s := { s with loadAddr := loadAddr, tftpWriting := put, netState := .continue,
                    netBootFileXferSize := 0 }
  let opened (s : State) : State :=
    { s with tftpRemotePort := wellKnownPort, tftpOurPort := ourPort, tftpBlock := 0
             tftpBlkSize := tftpBlockSize }
  if put then
    opened (newTransfer { s with netBootFileXferSize := saveSize, tftpState := .sendWrq })
  else if loadAddr < sysLoadAddr ∨ loadAddr ≥ sdramEnd ramSize ∨
      (loadAddr ≥ ipqTftpMaxAddr ∧ loadAddr < tzEndAddr) then
    { s with tftpState := .tooLarge, netState := .fail }
  else opened { s with tftpState := .sendRrq }

/-- What happens to the client: it is started, or a packet comes in. -/
inductive Event
  | start (put : Bool) (loadAddr saveSize ourPort : ℕ)
  | packet (p : Packet)

/-- One event. -/
def step (s : State) : Event → State × Stores
  | .start put loadAddr saveSize ourPort => (tftpStart ramSize s put loadAddr saveSize ourPort, [])
  | .packet p => tftpHandler ramSize s p

/-! ### What has to stay clear -/

/-- The code and the Trust Zone, and what is not RAM. -/
def Protected (a : ℕ) : Prop := (ipqTftpMaxAddr ≤ a ∧ a < tzEndAddr) ∨ sdramEnd ramSize ≤ a

/-- No protected byte is stored. -/
def StoresClear (stores : Stores) : Prop :=
  ∀ st ∈ stores, ∀ i < st.2, ¬ Protected ramSize ((st.1 + i) % 2 ^ 32)

/-- The packet is data the client stores, as far as the packet says: it comes from the
server, and it is block 1 in front, or not the block of the last packet. -/
def IsStored (s : State) (p : Packet) : Prop :=
  p.dest = s.tftpOurPort ∧
    (s.tftpState = .sendRrq ∨ p.src = s.tftpRemotePort ∨ s.tftpState = .recvWrq ∨
      s.tftpState = .sendWrq) ∧
    4 ≤ p.len ∧ p.ntohs 0 = 3 ∧
    (AwaitsFirst s → p.ntohs 2 = 1) ∧ (¬ AwaitsFirst s → p.ntohs 2 ≠ s.tftpLastBlock)

/-- The offset for wraparounds that holds for block `n`. -/
def wrapOffset (s : State) (n : ℕ) : ℕ :=
  if AwaitsFirst s then 0
  else if n = 0 then s.tftpBlockWrapOffset + s.tftpBlkSize * tftpSequenceSize
  else s.tftpBlockWrapOffset

/-- The address of block `n`. -/
def blockAddr (s : State) (n : ℕ) : ℕ :=
  (s.loadAddr + (n + 2 ^ 32 - 1) * s.tftpBlkSize + wrapOffset s n) % 2 ^ 32

/-- The look at the end of the block finds it to be in the way. -/
def EndsInTheWay (start len : ℕ) : Prop :=
  sdramEnd ramSize ≤ (start + len) % 2 ^ 32 ∨
    (ipqTftpMaxAddr ≤ (start + len) % 2 ^ 32 ∧ (start + len) % 2 ^ 32 < tzEndAddr)

/-- The block does not run over the end of the address space, and ends in front of
`CONFIG_TZ_END_ADDR` or begins behind it. -/
def KeepsOff (start len : ℕ) : Prop :=
  start + len < 2 ^ 32 ∧ (start + len < tzEndAddr ∨ tzEndAddr ≤ start)

instance (start len : ℕ) : Decidable (EndsInTheWay ramSize start len) := by
  unfold EndsInTheWay; infer_instance

/-- A data packet that is stored is empty, is refused for its end, or keeps off. -/
def Clear (s : State) : Event → Prop
  | .start .. => True
  | .packet p => IsStored s p →
      p.len = 4 ∨ EndsInTheWay ramSize (blockAddr s (p.ntohs 2)) (p.len - 4) ∨
        KeepsOff (blockAddr s (p.ntohs 2)) (p.len - 4)

variable {ramSize} {s : State} {p : Packet} {start len block : ℕ}

/-- **One block.**  Where its end is not in the way, a block is clear of the protected
addresses exactly if it is empty or keeps off. -/
theorem storesClear_iff (hstart : start < 2 ^ 32) (hend : ¬ EndsInTheWay ramSize start len) :
    StoresClear ramSize [(start, len)] ↔ len = 0 ∨ KeepsOff start len := by
  obtain ⟨hram, hregion⟩ := not_or.mp hend
  have hmod : (start + len) % 2 ^ 32 < 2 ^ 32 := Nat.mod_lt _ (by omega)
  have hsd : sdramEnd ramSize < 2 ^ 32 := Nat.mod_lt _ (by omega)
  simp only [StoresClear, List.mem_singleton, forall_eq, Protected, KeepsOff, ipqTftpMaxAddr,
    tzEndAddr] at *
  constructor
  · intro hclear
    rcases Nat.eq_zero_or_pos len with hlen | hlen
    · exact Or.inl hlen
    refine Or.inr ⟨?_, ?_⟩
    · -- the last address there is would be among those written
      by_contra hover
      refine hclear (2 ^ 32 - 1 - start) (by omega) (Or.inr ?_)
      rw [show start + (2 ^ 32 - 1 - start) = 2 ^ 32 - 1 by omega]
      omega
    · by_contra hover
      by_cases hbelow : start < 0x87000000
      · refine hclear (0x87000000 - start) (by omega) (Or.inl ?_)
        omega
      · refine hclear 0 hlen (Or.inl ?_)
        omega
  · rintro (rfl | ⟨hlt, hkeep⟩) i hi
    · omega
    · rw [Nat.mod_eq_of_lt hlt] at hram hregion
      rw [Nat.mod_eq_of_lt (by omega)]
      omega

theorem storesClear_nil : StoresClear ramSize [] := by simp [StoresClear]

/-- `store_block` writes the block unless its end is in the way. -/
theorem storeBlock_stores (hstart :
      (s.loadAddr + (block * s.tftpBlkSize + s.tftpBlockWrapOffset)) % 2 ^ 32 = start) :
    (storeBlock ramSize s block len).2 =
      if EndsInTheWay ramSize start len then [] else [(start, len)] := by
  have hoffset : (s.loadAddr + (block * s.tftpBlkSize + s.tftpBlockWrapOffset) % 2 ^ 32) % 2 ^ 32 =
      start := by
    rw [Nat.add_mod_mod, hstart]
  have hstop : (s.loadAddr + ((block * s.tftpBlkSize + s.tftpBlockWrapOffset) % 2 ^ 32 + len) %
      2 ^ 32) % 2 ^ 32 = (start + len) % 2 ^ 32 := by
    rw [Nat.add_mod_mod, ← Nat.add_assoc, ← Nat.mod_add_mod, hoffset]
  unfold storeBlock
  dsimp only
  rw [hstop, hoffset]
  by_cases hend : EndsInTheWay ramSize start len
  · rw [if_pos hend]
    exact congrArg Prod.snd (if_pos hend)
  · rw [if_neg hend]
    exact congrArg Prod.snd (if_neg hend)

theorem storesClear_storeBlock (hstart :
      (s.loadAddr + (block * s.tftpBlkSize + s.tftpBlockWrapOffset)) % 2 ^ 32 = start) :
    StoresClear ramSize (storeBlock ramSize s block len).2 ↔
      len = 0 ∨ EndsInTheWay ramSize start len ∨ KeepsOff start len := by
  rw [storeBlock_stores hstart]
  by_cases hend : EndsInTheWay ramSize start len
  · rw [if_pos hend]
    exact iff_of_true storesClear_nil (Or.inr (Or.inl hend))
  · have hlt : start < 2 ^ 32 := hstart ▸ Nat.mod_lt _ (by omega)
    rw [if_neg hend, storesClear_iff hlt hend]
    simp only [hend, false_or]

/-- The block number, where the test for the first block is made, is stored or passed over. -/
theorem handleBlock_stores :
    (handleBlock ramSize s p).2 =
      if s.tftpBlock = s.tftpLastBlock then []
      else (storeBlock ramSize { s with tftpLastBlock := s.tftpBlock }
        ((s.tftpBlock + 2 ^ 32 - 1) % 2 ^ 32) (p.len - 4)).2 := by
  unfold handleBlock
  split <;> rfl

theorem storesClear_handleBlock (hstart : (s.loadAddr +
      (s.tftpBlock + 2 ^ 32 - 1) * s.tftpBlkSize + s.tftpBlockWrapOffset) % 2 ^ 32 = start)
    (hlen : 4 ≤ p.len) :
    StoresClear ramSize (handleBlock ramSize s p).2 ↔
      (s.tftpBlock ≠ s.tftpLastBlock →
        p.len = 4 ∨ EndsInTheWay ramSize start (p.len - 4) ∨ KeepsOff start (p.len - 4)) := by
  rw [handleBlock_stores]
  by_cases hsame : s.tftpBlock = s.tftpLastBlock
  · rw [if_pos hsame]
    exact iff_of_true storesClear_nil fun hne => absurd hsame hne
  · have hblock : (s.loadAddr + ((s.tftpBlock + 2 ^ 32 - 1) % 2 ^ 32 * s.tftpBlkSize +
        s.tftpBlockWrapOffset)) % 2 ^ 32 = start := by
      rw [← hstart, ← Nat.add_assoc]
      exact ((((Nat.mod_modEq _ _).mul_right _).add_left _).add_right _)
    have hempty : p.len - 4 = 0 ↔ p.len = 4 := by omega
    rw [if_neg hsame]
    refine (storesClear_storeBlock (s := { s with tftpLastBlock := s.tftpBlock }) hblock).trans ?_
    rw [hempty]
    exact ⟨fun h _ => h, fun h => h hsame⟩

/-- `update_block_number` only counts wraparounds. -/
theorem updateBlockNumber_eq (s : State) :
    ∃ wraps offset, updateBlockNumber s =
        { s with tftpBlockWrap := wraps, tftpBlockWrapOffset := offset } ∧
      (¬ AwaitsFirst s → offset % 2 ^ 32 = wrapOffset s s.tftpBlock % 2 ^ 32) := by
  unfold updateBlockNumber
  by_cases hzero : s.tftpBlock = 0
  · rw [if_pos hzero]
    refine ⟨_, _, rfl, fun hfirst => ?_⟩
    rw [wrapOffset, if_neg hfirst, if_pos hzero, Nat.mod_mod]
  · rw [if_neg hzero]
    refine ⟨s.tftpBlockWrap, s.tftpBlockWrapOffset, rfl, fun hfirst => ?_⟩
    rw [wrapOffset, if_neg hfirst, if_neg hzero]

variable (ramSize s) in
/-- What `TftpHandler` does about wraparounds and the first block: a data packet is
dropped, or stored with the offset for wraparounds that holds for it. -/
theorem handleData_cases (hlen : 4 ≤ p.len) :
    (AwaitsFirst s ∧ p.ntohs 2 ≠ 1 ∧ (handleData ramSize s p).2 = []) ∨
      ∃ t, (handleData ramSize s p).2 = (handleBlock ramSize t p).2 ∧
        t.tftpBlock = p.ntohs 2 ∧ (AwaitsFirst s → p.ntohs 2 = 1 ∧ t.tftpLastBlock = 0) ∧
        (¬ AwaitsFirst s → t.tftpLastBlock = s.tftpLastBlock) ∧
        (t.loadAddr + (t.tftpBlock + 2 ^ 32 - 1) * t.tftpBlkSize + t.tftpBlockWrapOffset) % 2 ^ 32 =
          blockAddr s (p.ntohs 2) := by
  obtain ⟨wraps, offset, heq, hoffset⟩ := updateBlockNumber_eq { s with tftpBlock := p.ntohs 2 }
  have hstart := blockAddr.eq_def s (p.ntohs 2)
  unfold handleData
  rw [if_neg (by omega), heq]
  by_cases hfirst : AwaitsFirst s
  · -- a first block that is not block 1 starts nothing
    by_cases hone : p.ntohs 2 = 1
    · refine Or.inr ⟨newTransfer { s with
        tftpBlock := p.ntohs 2, tftpBlockWrap := wraps, tftpState := .data,
        tftpRemotePort := p.src }, ?_, rfl, fun _ => ⟨hone, rfl⟩, fun h => absurd hfirst h, ?_⟩
      · exact congrArg Prod.snd ((if_pos hfirst).trans (if_neg (not_not.mpr hone)))
      · rw [hstart, wrapOffset, if_pos hfirst]
        rfl
    · exact Or.inl ⟨hfirst, hone, congrArg Prod.snd ((if_pos hfirst).trans (if_pos hone))⟩
  · refine Or.inr ⟨_, congrArg Prod.snd (if_neg hfirst), rfl, fun h => absurd h hfirst,
      fun _ => rfl, ?_⟩
    rw [hstart]
    exact Nat.ModEq.add_left _ (hoffset hfirst)

/-- **A data packet.** -/
theorem storesClear_handleData (hlen : 4 ≤ p.len) :
    StoresClear ramSize (handleData ramSize s p).2 ↔
      ((AwaitsFirst s → p.ntohs 2 = 1) → (¬ AwaitsFirst s → p.ntohs 2 ≠ s.tftpLastBlock) →
        p.len = 4 ∨ EndsInTheWay ramSize (blockAddr s (p.ntohs 2)) (p.len - 4) ∨
          KeepsOff (blockAddr s (p.ntohs 2)) (p.len - 4)) := by
  rcases handleData_cases ramSize s hlen with
    ⟨hfirst, hone, hnil⟩ | ⟨t, heq, hblock, hone, hlast, hstart⟩
  · rw [hnil]
    exact iff_of_true storesClear_nil fun h => absurd (h hfirst) hone
  · rw [heq, storesClear_handleBlock hstart hlen, hblock]
    by_cases hfirst : AwaitsFirst s
    · obtain ⟨hone, hzero⟩ := hone hfirst
      have hne : p.ntohs 2 ≠ t.tftpLastBlock := by omega
      exact ⟨fun h _ _ => h hne, fun h _ => h (fun _ => hone) fun hnot => absurd hfirst hnot⟩
    · rw [hlast hfirst]
      exact ⟨fun h _ hne => h (hne hfirst),
        fun h hne => h (fun hyes => absurd hyes hfirst) fun _ => hne⟩

/-- **One event.** -/
theorem storesClear_step (s : State) (e : Event) :
    StoresClear ramSize (step ramSize s e).2 ↔ Clear ramSize s e := by
  rcases e with ⟨put, loadAddr, saveSize, ourPort⟩ | p
  · exact iff_of_true storesClear_nil trivial
  simp only [step, Clear, tftpHandler]
  by_cases hdest : p.dest = s.tftpOurPort
  case neg =>
    rw [if_pos hdest]
    exact iff_of_true storesClear_nil fun h => absurd h.1 hdest
  rw [if_neg (not_not.mpr hdest)]
  -- the ports are those of the transfer
  by_cases hsrc : s.tftpState = .sendRrq ∨ p.src = s.tftpRemotePort ∨ s.tftpState = .recvWrq ∨
      s.tftpState = .sendWrq
  case neg =>
    rw [if_pos (by tauto)]
    exact iff_of_true storesClear_nil fun h => absurd h.2.1 hsrc
  rw [if_neg (by tauto)]
  by_cases hlen : p.len < 2
  · rw [if_pos hlen]
    exact iff_of_true storesClear_nil fun h => absurd h.2.2.1 (by omega)
  rw [if_neg hlen]
  by_cases hdata : p.ntohs 0 = 3
  · rw [hdata]
    by_cases hshort : p.len < 4
    · rw [handleData, if_pos (by omega)]
      exact iff_of_true storesClear_nil fun h => absurd h.2.2.1 (by omega)
    · have hle : 4 ≤ p.len := by omega
      refine (storesClear_handleData hle).trans ?_
      exact ⟨fun h hst => h hst.2.2.2.2.1 hst.2.2.2.2.2,
        fun h hone hnew => h ⟨hdest, hsrc, hle, hdata, hone, hnew⟩⟩
  · -- no other packet is stored
    refine iff_of_true ?_ fun h => absurd h.2.2.2.1 hdata
    split
    · contradiction
    all_goals exact storesClear_nil

/-- **The client.**  No run stores a protected byte exactly if every data packet it
stores is empty, is refused for its end, or keeps off. -/
theorem run_clear_iff (ramSize : ℕ) (s : State) (es : List Event) :
    (∀ stores ∈ Run.outputs (step ramSize) s es, StoresClear ramSize stores) ↔
      Run.AllSteps (step ramSize) (Clear ramSize) s es :=
  Run.forall_mem_outputs_iff.trans (Run.allSteps_congr storesClear_step)

/-- A data packet of zeros, as a server sends it to port 2000. -/
def zeros (block len : ℕ) : Packet where
  pkt := [0, 3, UInt8.ofNat (block / 256), UInt8.ofNat block] ++ List.replicate len 0
  dest := 2000
  src := 3000
  len := 4 + len

/-- The globals before the first transfer. -/
def idle : State :=
  ⟨0x84000000, 0, 0, 0, 0, 0, 0, .badMagic, false, false, tftpBlockSize, 0, .continue⟩

/-- **The end of a block says little about its beginning.**  With 256 MiB of RAM and the
load address `0x86800000`, a server that sends block 1 and then block `0xc000` has the
client write the 512 bytes below `CONFIG_TZ_END_ADDR`. -/
theorem stores_protected :
    Run.outputs (step 0x10000000) idle
        [.start false 0x86800000 0 2000, .packet (zeros 1 512), .packet (zeros 0xc000 512)] =
        [[], [(0x86800000, 512)], [(0x87fffe00, 512)]] ∧
      ¬ StoresClear 0x10000000 [(0x87fffe00, 512)] := by
  refine ⟨by decide, fun hclear => ?_⟩
  refine hclear (0x87fffe00, 512) (List.mem_singleton_self _) 0 (by decide) (Or.inl ?_)
  decide

end Tftp
