/-
A file of more than 65535 blocks (`update_block_number`).

The block number has 16 bits.  When it comes around, `update_block_number` adds the size of
65536 blocks to an offset; it does so for every packet with the number 0, also for one that
only repeats the last block.

* `handle_next`, `handle_again` — the next block, and the last one once more;
* `stores_inOrder` — **where the blocks of a file go, for any size of the file**, when they
  come in order and each of them any number of times: every repetition of a block with the
  number 0 moves all blocks behind it up by 65536 blocks.
-/
import Mathlib.Tactic.Ring
import OpenMptcpRouter.Tftp.StoreBlock

namespace Tftp

/-- Block `k` of a file, counted from 1: `len` bytes of data sent between two ports. -/
structure Numbered (ours theirs k len : ℕ) (p : Packet) : Prop where
  dest : p.dest = ours
  src : p.src = theirs
  len_eq : p.len = 4 + len
  op : p.ntohs 0 = 3
  number : p.ntohs 2 = k % 2 ^ 16

/-- The client of a transfer with blocks of `size` bytes to `loadAddr`, after block `n`, with
`extra` repetitions of blocks with the number 0. -/
structure After (loadAddr ours theirs size n extra : ℕ) (s : State) : Prop where
  addr : s.loadAddr = loadAddr
  port : s.tftpOurPort = ours
  size_eq : s.tftpBlkSize = size
  waiting : n = 0 → AwaitsFirst s ∧ (s.tftpState = .sendRrq ∨ s.tftpRemotePort = theirs) ∧ extra = 0
  started : 0 < n → ¬ AwaitsFirst s ∧ s.tftpRemotePort = theirs ∧ s.tftpLastBlock = n % 2 ^ 16
  wrap : 0 < n → s.tftpBlockWrapOffset ≡ size * 2 ^ 16 * (n / 2 ^ 16 + extra) [MOD 2 ^ 32]

variable (ramSize : ℕ)

/-- What is stored for block `k` of `len` bytes behind `extra` repetitions. -/
def placed (loadAddr size k len extra : ℕ) : Stores :=
  let start := (loadAddr + (k - 1) * size + size * 2 ^ 16 * extra) % 2 ^ 32
  if EndsInTheWay ramSize start len then [] else [(start, len)]

/-- How many repetitions of blocks with the number 0 there are among the first `n` blocks, if
block `k` comes `copies k` times more than once. -/
def repeatedZeros (copies : ℕ → ℕ) : ℕ → ℕ
  | 0 => 0
  | n + 1 => repeatedZeros copies n + if (n + 1) % 2 ^ 16 = 0 then copies (n + 1) else 0

/-- The first `n` blocks in order. -/
def inOrder (packets : ℕ → Packet) (copies : ℕ → ℕ) (n : ℕ) : List Packet :=
  (List.range n).flatMap fun i => List.replicate (copies (i + 1) + 1) (packets (i + 1))

/-- What storing and sending leave as they are. -/
structure Keeps (s t : State) : Prop where
  addr : t.loadAddr = s.loadAddr
  ours : t.tftpOurPort = s.tftpOurPort
  theirs : t.tftpRemotePort = s.tftpRemotePort
  size : t.tftpBlkSize = s.tftpBlkSize
  wrap : t.tftpBlockWrapOffset = s.tftpBlockWrapOffset
  last : t.tftpLastBlock = s.tftpLastBlock
  awaits : ¬ AwaitsFirst s → ¬ AwaitsFirst t

section Steps

variable {ramSize} {s t u : State} {p : Packet}
  {loadAddr ours theirs size n extra len block : ℕ}

theorem Keeps.refl (s : State) : Keeps s s := ⟨rfl, rfl, rfl, rfl, rfl, rfl, id⟩

theorem Keeps.trans (h : Keeps s t) (h' : Keeps t u) : Keeps s u :=
  ⟨h'.addr.trans h.addr, h'.ours.trans h.ours, h'.theirs.trans h.theirs, h'.size.trans h.size,
    h'.wrap.trans h.wrap, h'.last.trans h.last, h'.awaits ∘ h.awaits⟩

theorem keeps_storeBlock : Keeps s (storeBlock ramSize s block len).1 := by
  unfold storeBlock
  dsimp only
  split
  · exact ⟨rfl, rfl, rfl, rfl, rfl, rfl, fun _ => by simp [AwaitsFirst]⟩
  · exact ⟨rfl, rfl, rfl, rfl, rfl, rfl, id⟩

theorem keeps_tftpSend : Keeps s (tftpSend s) := by
  rw [tftpSend]
  split
  · exact ⟨rfl, rfl, rfl, rfl, rfl, rfl, id⟩
  · exact Keeps.refl s

theorem keeps_handleBlock (ramSize : ℕ) (hnew : s.tftpBlock ≠ s.tftpLastBlock) :
    Keeps { s with tftpLastBlock := s.tftpBlock } (handleBlock ramSize s p).1 := by
  rw [handleBlock, if_neg hnew]
  dsimp only
  have hstored : Keeps { s with tftpLastBlock := s.tftpBlock }
      (storeBlock ramSize { s with tftpLastBlock := s.tftpBlock }
        ((s.tftpBlock + 2 ^ 32 - 1) % 2 ^ 32) (p.len - 4)).1 := keeps_storeBlock
  have hsent := hstored.trans keeps_tftpSend
  split
  · exact hsent.trans ⟨rfl, rfl, rfl, rfl, rfl, rfl, id⟩
  · exact hsent

/-- A data packet between the ports of the transfer is handled as such. -/
theorem handler_eq (hpacket : Numbered ours theirs n len p) (hours : s.tftpOurPort = ours)
    (htheirs : s.tftpState = .sendRrq ∨ s.tftpRemotePort = theirs) :
    tftpHandler ramSize s p = handleData ramSize s p := by
  have hsrc : s.tftpState = .sendRrq ∨ p.src = s.tftpRemotePort :=
    htheirs.imp_right fun h => hpacket.src.trans h.symm
  have hlen := hpacket.len_eq
  rw [tftpHandler, if_neg (not_not.mpr (hpacket.dest.trans hours.symm)), if_neg (by tauto),
    if_neg (by omega), hpacket.op]
  rfl

/-- The offset of a block by its number and the wraparounds is its offset in the file. -/
theorem offset_modEq {number wraps : ℕ} (hnumber : number = (n + 1) % 2 ^ 16)
    (hwrap : wraps ≡ size * 2 ^ 16 * ((n + 1) / 2 ^ 16 + extra) [MOD 2 ^ 32]) :
    (number + 2 ^ 32 - 1) % 2 ^ 32 * size + wraps ≡
      n * size + size * 2 ^ 16 * extra [MOD 2 ^ 32] := by
  -- one more block on both sides, so that nothing is taken off the number 0
  refine Nat.ModEq.add_right_cancel' size ?_
  obtain ⟨c, hc⟩ : ∃ c, (number + 2 ^ 32 - 1) % 2 ^ 32 + 1 = number + 2 ^ 32 * c := by
    rcases Nat.eq_zero_or_pos number with hzero | hpos
    · exact ⟨1, by omega⟩
    · exact ⟨0, by omega⟩
  have hleft : (number + 2 ^ 32 - 1) % 2 ^ 32 * size + wraps + size =
      number * size + wraps + 2 ^ 32 * (c * size) := by
    calc (number + 2 ^ 32 - 1) % 2 ^ 32 * size + wraps + size
        = ((number + 2 ^ 32 - 1) % 2 ^ 32 + 1) * size + wraps := by ring
      _ = number * size + wraps + 2 ^ 32 * (c * size) := by rw [hc]; ring
  have hright : n * size + size * 2 ^ 16 * extra + size =
      number * size + size * 2 ^ 16 * ((n + 1) / 2 ^ 16 + extra) := by
    have hdiv : n + 1 = 2 ^ 16 * ((n + 1) / 2 ^ 16) + number := by omega
    calc n * size + size * 2 ^ 16 * extra + size
        = (n + 1) * size + size * 2 ^ 16 * extra := by ring
      _ = (2 ^ 16 * ((n + 1) / 2 ^ 16) + number) * size + size * 2 ^ 16 * extra := by rw [← hdiv]
      _ = number * size + size * 2 ^ 16 * ((n + 1) / 2 ^ 16 + extra) := by ring
  have hround : number * size + wraps + 2 ^ 32 * (c * size) ≡ number * size + wraps
      [MOD 2 ^ 32] := by simp [Nat.ModEq]
  rw [hleft, hright]
  exact hround.trans (hwrap.add_left _)

/-- The block that is to be stored next goes behind all blocks in front of it. -/
theorem stores_of_wrap (haddr : s.loadAddr = loadAddr) (hsize : s.tftpBlkSize = size)
    (hblock : s.tftpBlock = (n + 1) % 2 ^ 16) (hnew : s.tftpBlock ≠ s.tftpLastBlock)
    (hlen : p.len = 4 + len)
    (hwrap : s.tftpBlockWrapOffset ≡ size * 2 ^ 16 * ((n + 1) / 2 ^ 16 + extra) [MOD 2 ^ 32]) :
    (handleBlock ramSize s p).2 = placed ramSize loadAddr size (n + 1) len extra := by
  have hplace : (s.loadAddr + ((s.tftpBlock + 2 ^ 32 - 1) % 2 ^ 32 * s.tftpBlkSize +
      s.tftpBlockWrapOffset)) % 2 ^ 32 =
      (loadAddr + (n + 1 - 1) * size + size * 2 ^ 16 * extra) % 2 ^ 32 := by
    rw [haddr, hsize, Nat.add_sub_cancel, Nat.add_assoc]
    exact (offset_modEq hblock hwrap).add_left _
  have hdata : p.len - 4 = len := by omega
  rw [handleBlock_stores, if_neg hnew, hdata]
  exact storeBlock_stores (s := { s with tftpLastBlock := s.tftpBlock }) hplace

/-- The offset for wraparounds counts the packets with the number 0. -/
theorem updateBlockNumber_wrap {number : ℕ} (hblock : s.tftpBlock = number)
    (hwrap : s.tftpBlockWrapOffset ≡ size * 2 ^ 16 * n [MOD 2 ^ 32])
    (hsize : s.tftpBlkSize = size) :
    (updateBlockNumber s).tftpBlockWrapOffset ≡
        size * 2 ^ 16 * (n + if number = 0 then 1 else 0) [MOD 2 ^ 32] ∧
      ∃ wraps offset, updateBlockNumber s =
        { s with tftpBlockWrap := wraps, tftpBlockWrapOffset := offset } := by
  subst hblock
  rw [updateBlockNumber]
  by_cases hzero : s.tftpBlock = 0
  · rw [if_pos hzero, if_pos hzero]
    refine ⟨?_, _, _, rfl⟩
    dsimp only
    rw [hsize, tftpSequenceSize, Nat.mul_add, Nat.mul_one]
    exact (Nat.mod_modEq _ _).trans (hwrap.add_right _)
  · rw [if_neg hzero, if_neg hzero]
    exact ⟨hwrap, s.tftpBlockWrap, s.tftpBlockWrapOffset, rfl⟩

/-- **The next block.** -/
theorem handle_next (ramSize : ℕ) (hs : After loadAddr ours theirs size n extra s)
    (hpacket : Numbered ours theirs (n + 1) len p) :
    (tftpHandler ramSize s p).2 = placed ramSize loadAddr size (n + 1) len extra ∧
      After loadAddr ours theirs size (n + 1) extra (tftpHandler ramSize s p).1 := by
  have hlen : ¬ p.len - 2 < 2 := by
    have hlen := hpacket.len_eq
    omega
  rcases Nat.eq_zero_or_pos n with rfl | hpos
  · -- the first block
    obtain ⟨hawaits, htheirs, rfl⟩ := hs.waiting rfl
    have hnumber : p.ntohs 2 = 1 := hpacket.number
    have hdata : handleData ramSize s p = handleBlock ramSize
        (newTransfer { s with tftpBlock := 1, tftpState := .data, tftpRemotePort := p.src }) p := by
      have hupdate : updateBlockNumber { s with tftpBlock := 1 } = { s with tftpBlock := 1 } :=
        if_neg Nat.one_ne_zero
      rw [handleData, if_neg hlen, hnumber, hupdate]
      exact (if_pos hawaits).trans (if_neg (not_not.mpr rfl))
    set t := newTransfer { s with tftpBlock := 1, tftpState := .data, tftpRemotePort := p.src } with ht
    have hnew : t.tftpBlock ≠ t.tftpLastBlock := Nat.one_ne_zero
    have hkeeps := keeps_handleBlock (p := p) ramSize hnew
    rw [handler_eq hpacket hs.port htheirs, hdata]
    refine ⟨stores_of_wrap hs.addr hs.size_eq rfl hnew hpacket.len_eq rfl,
      hkeeps.addr.trans hs.addr, hkeeps.ours.trans hs.port, hkeeps.size.trans hs.size_eq,
      fun h => absurd h (Nat.succ_ne_zero _), fun _ => ⟨hkeeps.awaits ?_, ?_, hkeeps.last⟩, fun _ => ?_⟩
    · simp [AwaitsFirst, ht, newTransfer]
    · exact hkeeps.theirs.trans hpacket.src
    · rw [hkeeps.wrap]
      rfl
  · obtain ⟨hstarted, htheirs, hlast⟩ := hs.started hpos
    obtain ⟨hwrap, wraps, offset, heq⟩ := updateBlockNumber_wrap
      (s := { s with tftpBlock := (n + 1) % 2 ^ 16 }) rfl (hs.wrap hpos) hs.size_eq
    have hcount : n / 2 ^ 16 + extra + (if (n + 1) % 2 ^ 16 = 0 then 1 else 0) =
        (n + 1) / 2 ^ 16 + extra := by
      split <;> omega
    rw [hcount] at hwrap
    have hdata : handleData ramSize s p =
        handleBlock ramSize (updateBlockNumber { s with tftpBlock := (n + 1) % 2 ^ 16 }) p := by
      rw [handleData, if_neg hlen, hpacket.number, heq]
      exact if_neg hstarted
    rw [handler_eq hpacket hs.port (Or.inr htheirs), hdata]
    set t := updateBlockNumber { s with tftpBlock := (n + 1) % 2 ^ 16 } with ht
    have hblock : t.tftpBlock = (n + 1) % 2 ^ 16 := by rw [heq]
    have hnew : t.tftpBlock ≠ t.tftpLastBlock := by
      have hlast' : t.tftpLastBlock = n % 2 ^ 16 := by rw [heq]; exact hlast
      omega
    have hkeeps := keeps_handleBlock (p := p) ramSize hnew
    refine ⟨stores_of_wrap (by rw [heq]; exact hs.addr) (by rw [heq]; exact hs.size_eq) hblock hnew
        hpacket.len_eq hwrap,
      hkeeps.addr.trans (by rw [heq]; exact hs.addr), hkeeps.ours.trans (by rw [heq]; exact hs.port),
      hkeeps.size.trans (by rw [heq]; exact hs.size_eq), fun h => absurd h (Nat.succ_ne_zero _),
      fun _ => ⟨hkeeps.awaits (by rw [heq]; exact hstarted),
        hkeeps.theirs.trans (by rw [heq]; exact htheirs), hkeeps.last.trans hblock⟩, fun _ => ?_⟩
    rw [hkeeps.wrap]
    exact hwrap

/-- **The last block once more.** -/
theorem handle_again (ramSize : ℕ) (hs : After loadAddr ours theirs size n extra s) (hpos : 0 < n)
    (hpacket : Numbered ours theirs n len p) :
    (tftpHandler ramSize s p).2 = [] ∧
      After loadAddr ours theirs size n (extra + if n % 2 ^ 16 = 0 then 1 else 0)
        (tftpHandler ramSize s p).1 := by
  have hlen : ¬ p.len - 2 < 2 := by
    have hlen := hpacket.len_eq
    omega
  obtain ⟨hstarted, htheirs, hlast⟩ := hs.started hpos
  obtain ⟨hwrap, wraps, offset, heq⟩ := updateBlockNumber_wrap
    (s := { s with tftpBlock := n % 2 ^ 16 }) rfl (hs.wrap hpos) hs.size_eq
  have hdata : handleData ramSize s p =
      (updateBlockNumber { s with tftpBlock := n % 2 ^ 16 }, []) := by
    rw [handleData, if_neg hlen, hpacket.number, heq]
    exact (if_neg hstarted).trans (if_pos hlast.symm)
  rw [handler_eq hpacket hs.port (Or.inr htheirs), hdata]
  refine ⟨rfl, ?_⟩
  dsimp only
  rw [Nat.add_assoc] at hwrap
  refine ⟨by rw [heq]; exact hs.addr, by rw [heq]; exact hs.port, by rw [heq]; exact hs.size_eq,
    fun h => absurd h (Nat.ne_of_gt hpos), fun _ => ⟨?_, ?_, ?_⟩, fun _ => hwrap⟩
  · rw [heq]
    exact hstarted
  · rw [heq]
    exact htheirs
  · rw [heq]
    exact hlast

/-- The last block, any number of times more. -/
theorem handle_copies (ramSize : ℕ) (hpos : 0 < n) (hpacket : Numbered ours theirs n len p)
    (copies : ℕ) :
    ∀ {s : State} {extra : ℕ}, After loadAddr ours theirs size n extra s →
      Run.outputs (tftpHandler ramSize) s (List.replicate copies p) = List.replicate copies [] ∧
        After loadAddr ours theirs size n (extra + if n % 2 ^ 16 = 0 then copies else 0)
          (Run.exec (tftpHandler ramSize) s (List.replicate copies p)) := by
  induction copies with
  | zero =>
    intro s extra hs
    rw [ite_self]
    exact ⟨rfl, hs⟩
  | succ copies ih =>
    intro s extra hs
    obtain ⟨hnone, hs'⟩ := handle_again ramSize hs hpos hpacket
    obtain ⟨hrest, hs''⟩ := ih hs'
    have hcount : extra + (if n % 2 ^ 16 = 0 then 1 else 0) + (if n % 2 ^ 16 = 0 then copies else 0) =
        extra + if n % 2 ^ 16 = 0 then copies + 1 else 0 := by
      split <;> omega
    rw [List.replicate_succ, List.replicate_succ, Run.outputs_cons, Run.exec_cons, hnone, hrest,
      ← hcount]
    exact ⟨rfl, hs''⟩

/-- **Where the blocks go.**  Whatever the size of the file, blocks that come in order, block
`k` of them `copies k` times more than once, are stored one behind the other, except that each
repetition of a block with the number 0 leaves a gap of 65536 blocks. -/
theorem stores_inOrder (ramSize : ℕ) {loadAddr ours theirs size : ℕ} {s : State}
    {packets : ℕ → Packet} {lens : ℕ → ℕ} (copies : ℕ → ℕ) (n : ℕ)
    (hs : After loadAddr ours theirs size 0 0 s)
    (hpackets : ∀ k, 0 < k → Numbered ours theirs k (lens k) (packets k)) :
    Run.outputs (tftpHandler ramSize) s (inOrder packets copies n) =
      (List.range n).flatMap fun i =>
        placed ramSize loadAddr size (i + 1) (lens (i + 1)) (repeatedZeros copies i) ::
          List.replicate (copies (i + 1)) [] := by
  suffices h : Run.outputs (tftpHandler ramSize) s (inOrder packets copies n) =
      ((List.range n).flatMap fun i =>
        placed ramSize loadAddr size (i + 1) (lens (i + 1)) (repeatedZeros copies i) ::
          List.replicate (copies (i + 1)) []) ∧
      After loadAddr ours theirs size n (repeatedZeros copies n)
        (Run.exec (tftpHandler ramSize) s (inOrder packets copies n)) from h.1
  induction n with
  | zero => exact ⟨rfl, hs⟩
  | succ n ih =>
    obtain ⟨hbefore, hs'⟩ := ih
    have hpacket := hpackets (n + 1) (Nat.succ_pos n)
    obtain ⟨hnext, hs''⟩ := handle_next ramSize hs' hpacket
    obtain ⟨hagain, hs'''⟩ := handle_copies ramSize (Nat.succ_pos n) hpacket
      (copies (n + 1)) hs''
    have hsplit : inOrder packets copies (n + 1) = inOrder packets copies n ++
        packets (n + 1) :: List.replicate (copies (n + 1)) (packets (n + 1)) := by
      simp [inOrder, List.range_succ, List.replicate_succ]
    rw [hsplit, Run.outputs_append, Run.exec_append, hbefore, Run.outputs_cons, Run.exec_cons, hnext,
      hagain]
    refine ⟨?_, hs'''⟩
    simp [List.range_succ]

end Steps

theorem numbered_zeros (k len : ℕ) : Numbered 2000 3000 k len (zeros k len) where
  dest := rfl
  src := rfl
  len_eq := rfl
  op := rfl
  number := by
    have hhigh : (zeros k len).byte 2 = UInt8.ofNat (k / 256) := rfl
    have hlow : (zeros k len).byte (2 + 1) = UInt8.ofNat k := rfl
    rw [Packet.ntohs, hhigh, hlow, UInt8.toNat_ofNat', UInt8.toNat_ofNat']
    omega

/-- Before block 65536 there is no block with the number 0. -/
theorem repeatedZeros_of_lt {copies : ℕ → ℕ} {n : ℕ} (hn : n < 2 ^ 16) :
    repeatedZeros copies n = 0 := by
  induction n with
  | zero => rfl
  | succ n ih => rw [repeatedZeros, ih (by omega), if_neg (by omega)]

/-- Block 65536 is the first one. -/
theorem repeatedZeros_of_eq (copies : ℕ → ℕ) {n : ℕ} (hn : n = 2 ^ 16) :
    repeatedZeros copies n = copies n := by
  cases n with
  | zero => omega
  | succ n => rw [repeatedZeros, repeatedZeros_of_lt (by omega), if_pos (by omega), Nat.zero_add]

/-- Behind block 65536, which came twice, 65536 blocks are left out. -/
theorem stores_inOrder_zeros :
    (Run.outputs (tftpHandler 0x10000000)
        (tftpStart 0x10000000 idle false 0x84000000 0 2000)
        (inOrder (fun k => zeros k 512) (fun k => if k = 65536 then 1 else 0) 65537)).getLast? =
      some [(0x88000000, 512)] := by
  have hrepeated : repeatedZeros (fun k => if k = 65536 then 1 else 0) 65536 = 1 :=
    (repeatedZeros_of_eq _ rfl).trans (if_pos rfl)
  rw [stores_inOrder 0x10000000 (fun k => if k = 65536 then 1 else 0) 65537
    ⟨rfl, rfl, rfl, fun _ => by decide, fun h => absurd h (Nat.lt_irrefl 0),
      fun h => absurd h (Nat.lt_irrefl 0)⟩
    fun k _ => numbered_zeros k 512]
  rw [List.range_succ, List.flatMap_append, List.flatMap_singleton, hrepeated]
  rw [if_neg (by decide), List.replicate_zero, List.getLast?_concat]
  decide

end Tftp
