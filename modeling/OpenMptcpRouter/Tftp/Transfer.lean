/-
A TFTP server, the network, and what packets do to a client that loads a file.

The server sends block `n + 1` after it has seen an acknowledgement of block `n`; it may
offer a block size first.  A `World` is the client of `net/tftp.c`, such a server, and all
packets sent so far; any of them may arrive at any time, any number of times or never, in
between packets from elsewhere.

* `store_overlay` — the RAM with one more block of the file in it;
* `handle_data`, `handle_oack`, `handle_foreign`, `timeout_advances` — what a packet or a
  timeout does to the blocks that are held and to what is acknowledged (`Advances`);
* `poll_advances` — and so a round of the network loop.

The file has less than 65536 blocks, so that no block number comes around.
-/
import Mathlib.Data.Finset.Lattice.Fold
import Mathlib.Order.Lattice.Nat
import OpenMptcpRouter.Lib.Blocks
import OpenMptcpRouter.Tftp.Client

namespace Tftp

/-! ### The server -/

/-- A server with one file to send. -/
structure Server where
  file : List UInt8
  port : ℕ
  clientPort : ℕ
  blkSize : ℕ
  /-- the options it acknowledges -/
  oack : Option Packet
  blkSize_pos : 0 < blkSize
  blkSize_lt : blkSize < 2 ^ 16
  oack_reads : ∀ p ∈ oack, p.ntohs 0 = 6 ∧ p.src = port ∧ p.dest = clientPort ∧ 2 ≤ p.len ∧
    oackBlkSize p (p.len - 2) tftpBlockSize = blkSize
  oack_none : oack = none → blkSize = tftpBlockSize
  short : file.length / blkSize + 1 < 2 ^ 16

/-- The number of the last block, which is the first that is not full. -/
def Server.last (srv : Server) : ℕ := srv.file.length / srv.blkSize + 1

/-- Block `k` of the file, counted from 1. -/
def Server.piece (srv : Server) (k : ℕ) : List UInt8 := Blocks.block srv.blkSize srv.file (k - 1)

/-- The packet with block `k`. -/
def Server.dataPacket (srv : Server) (k : ℕ) : Packet where
  pkt := [0, 3, UInt8.ofNat (k / 256), UInt8.ofNat k] ++ srv.piece k
  dest := srv.clientPort
  src := srv.port
  len := 4 + (srv.piece k).length

/-- What the server, at block `b`, answers to a packet of the client. -/
def Server.serve (srv : Server) (b : ℕ) : Sent → ℕ × List Packet
  | .request _ =>
    match srv.oack with
    | some p => (b, [p])
    | none => (max b 1, [srv.dataPacket 1])
  | .ack n => if n = b ∧ b < srv.last then (b + 1, [srv.dataPacket (b + 1)]) else (b, [])
  | .data _ _ | .error _ _ => (b, [])

/-! ### Client, server and network -/

/-- The client, the block the server is at, and the packets sent so far. -/
structure World where
  client : Client
  block : ℕ
  up : List Sent
  down : List Packet

/-- What can happen: a round of the client's loop, or the server receives a packet. -/
inductive Action
  | poll (ps : List Packet) (timesOut : Bool)
  | serve (m : Sent)

variable (ramSize : ℕ) (srv : Server)

/-- One action, and what it has the client store. -/
def World.step (w : World) : Action → World × Stores
  | .poll ps timesOut =>
    let r := w.client.poll ramSize ps timesOut
    ({ w with client := r.client, up := w.up ++ r.sent }, r.stores)
  | .serve m =>
    let r := srv.serve w.block m
    ({ w with block := r.1, down := w.down ++ r.2 }, [])

/-- A packet that is not of this transfer: for another port, of another kind, or, once the
server has answered, from another port. -/
def Foreign (s : State) (p : Packet) : Prop :=
  p.dest ≠ s.tftpOurPort ∨ (p.ntohs 0 ≠ 3 ∧ p.ntohs 0 ≠ 6) ∨
    (p.src ≠ srv.port ∧ s.tftpState ≠ .sendRrq)

/-- What arrives has been sent, or is foreign. -/
def World.Possible (w : World) : Action → Prop
  | .poll ps _ => ∀ p ∈ ps, p ∈ w.down ∨ Foreign srv w.client.globals p
  | .serve m => m ∈ w.up

/-- The world in which the client has just sent its request. -/
def World.start (c : Client) (loadAddr : ℕ) : World :=
  let h := c.start ramSize loadAddr srv.clientPort
  ⟨h.client, 0, h.sent, []⟩

/-! ### The bytes that are stored -/

/-- How far address `a` is behind the load address. -/
def offsetOf (loadAddr a : ℕ) : ℕ := (a + 2 ^ 32 - loadAddr % 2 ^ 32) % 2 ^ 32

/-- The RAM with the blocks `held` of the file from the load address on. -/
def overlay (loadAddr : ℕ) (ram : ℕ → UInt8) (held : Finset ℕ) (a : ℕ) : UInt8 :=
  if offsetOf loadAddr a / srv.blkSize + 1 ∈ held then
    srv.file.getD (offsetOf loadAddr a) (ram a)
  else ram a

/-- `store_block` does not store block `k`. -/
def Refused (loadAddr k : ℕ) : Prop :=
  EndsInTheWay ramSize ((loadAddr + (k - 1) * srv.blkSize) % 2 ^ 32) (srv.piece k).length

instance (loadAddr k : ℕ) : Decidable (Refused ramSize srv loadAddr k) := by
  unfold Refused; infer_instance

section Pieces

variable {srv} {loadAddr k a : ℕ} {ram : ℕ → UInt8} {held : Finset ℕ}

theorem length_piece (k : ℕ) :
    (srv.piece k).length = min srv.blkSize (srv.file.length - (k - 1) * srv.blkSize) := by
  rw [Server.piece, Blocks.block, List.length_take, List.length_drop]

theorem length_piece_le (k : ℕ) : (srv.piece k).length ≤ srv.blkSize := by
  rw [length_piece]
  exact Nat.min_le_left _ _

/-- Only the last block is not full. -/
theorem length_piece_lt_iff (hk : 1 ≤ k) (hlast : k ≤ srv.last) :
    (srv.piece k).length < srv.blkSize ↔ k = srv.last := by
  have hpos := srv.blkSize_pos
  have hdiv := Nat.div_add_mod' srv.file.length srv.blkSize
  have hmod := Nat.mod_lt srv.file.length hpos
  obtain ⟨j, rfl⟩ : ∃ j, k = j + 1 := ⟨k - 1, by omega⟩
  rw [length_piece, Server.last] at *
  rw [Nat.add_sub_cancel]
  constructor
  · intro hlt
    by_contra hne
    have hle : (j + 1) * srv.blkSize ≤ srv.file.length / srv.blkSize * srv.blkSize :=
      Nat.mul_le_mul_right _ (by omega)
    rw [Nat.succ_mul] at hle
    omega
  · intro heq
    obtain rfl : j = srv.file.length / srv.blkSize := by omega
    omega

theorem last_lt (srv : Server) : srv.last < 2 ^ 16 := srv.short

/-- The blocks of the file fit in the address space. -/
theorem mul_blkSize_lt (hlast : k ≤ srv.last) : k * srv.blkSize < 2 ^ 32 := by
  have hk : k ≤ 2 ^ 16 - 1 := by
    have hshort := last_lt srv
    omega
  have hsize : srv.blkSize ≤ 2 ^ 16 - 1 := by
    have hlt := srv.blkSize_lt
    omega
  calc k * srv.blkSize ≤ (2 ^ 16 - 1) * (2 ^ 16 - 1) := Nat.mul_le_mul hk hsize
    _ < 2 ^ 32 := by decide

/-- Storing one more block. -/
theorem store_overlay (hk : 1 ≤ k) (hlast : k ≤ srv.last) (ha : a < 2 ^ 32) :
    Memory.store (2 ^ 32) (overlay srv loadAddr ram held)
        ((loadAddr + (k - 1) * srv.blkSize) % 2 ^ 32) (srv.piece k) a =
      overlay srv loadAddr ram (insert k held) a := by
  obtain ⟨j, rfl⟩ : ∃ j, k = j + 1 := ⟨k - 1, by omega⟩
  have hfit := mul_blkSize_lt hlast
  rw [Nat.succ_mul] at hfit
  have hoff : offsetOf loadAddr a < 2 ^ 32 := Nat.mod_lt _ (by decide)
  have hindex : (a + 2 ^ 32 - (loadAddr + j * srv.blkSize) % 2 ^ 32) % 2 ^ 32 =
      (offsetOf loadAddr a + 2 ^ 32 - j * srv.blkSize) % 2 ^ 32 := by
    rw [offsetOf]
    omega
  rw [Memory.store_apply, Nat.add_sub_cancel, hindex, overlay, overlay, Server.piece, Blocks.block,
    Nat.add_sub_cancel]
  generalize offsetOf loadAddr a = o at hoff ⊢
  have hpos := srv.blkSize_pos
  simp only [List.getD_eq_getElem?_getD, List.getElem?_take, List.getElem?_drop, Finset.mem_insert,
    Nat.add_right_cancel_iff]
  by_cases hin : j * srv.blkSize ≤ o ∧ o < j * srv.blkSize + srv.blkSize
  · -- the address is in the block
    obtain ⟨hle, hlt⟩ := hin
    have hdiv : o / srv.blkSize = j := by
      rw [Nat.div_eq_iff hpos]
      omega
    have hmod : (o + 2 ^ 32 - j * srv.blkSize) % 2 ^ 32 = o - j * srv.blkSize := by omega
    rw [hmod, if_pos (by omega), if_pos (Or.inl hdiv), Nat.add_sub_cancel' hle]
    rcases srv.file[o]? with _ | x
    · rw [Option.getD_none, Option.getD_none, ite_self]
    · rfl
  · have hdiv : o / srv.blkSize ≠ j := by
      intro heq
      rw [Nat.div_eq_iff hpos] at heq
      omega
    rw [if_neg (by omega), Option.getD_none]
    simp only [hdiv, false_or]

/-- Where block `k` ends in the file. -/
def Server.stop (srv : Server) (k : ℕ) : ℕ := (k - 1) * srv.blkSize + (srv.piece k).length

theorem stop_lt (hk : 1 ≤ k) (hlast : k ≤ srv.last) : srv.stop k < 2 ^ 32 := by
  have hlt := mul_blkSize_lt hlast
  have hle : (srv.piece k).length ≤ srv.blkSize := length_piece_le k
  obtain ⟨j, rfl⟩ : ∃ j, k = j + 1 := ⟨k - 1, by omega⟩
  rw [Nat.succ_mul] at hlt
  rw [Server.stop, Nat.add_sub_cancel] at *
  omega

/-! ### A data packet, read -/

theorem dataPacket_op (k : ℕ) : (srv.dataPacket k).ntohs 0 = 3 := rfl

theorem dataPacket_block (hlast : k ≤ srv.last) : (srv.dataPacket k).ntohs 2 = k := by
  have hlt := last_lt srv
  have hhigh : ((srv.dataPacket k).byte 2) = UInt8.ofNat (k / 256) := rfl
  have hlow : ((srv.dataPacket k).byte (2 + 1)) = UInt8.ofNat k := rfl
  rw [Packet.ntohs, hhigh, hlow, UInt8.toNat_ofNat', UInt8.toNat_ofNat']
  omega

theorem dataPacket_len (k : ℕ) : (srv.dataPacket k).len - 4 = (srv.piece k).length :=
  Nat.add_sub_cancel_left ..

theorem dataPacket_payload (k : ℕ) :
    (srv.dataPacket k).payload (srv.piece k).length = srv.piece k := by
  refine List.ext_getElem (by simp [Packet.payload]) fun i hi hi' => ?_
  have hbyte : (srv.dataPacket k).byte (4 + i) = (srv.piece k).getD i 0 := by
    rw [Packet.byte, Server.dataPacket, List.getD_append_right _ _ _ _ (by simp)]
    congr 1
    simp
  simp only [Packet.payload, List.getElem_map, List.getElem_range, hbyte]
  exact List.getD_eq_getElem _ _ hi'

end Pieces

/-! ### The client during the transfer -/

/-- The globals of a client that loads the file. -/
structure Loading (loadAddr : ℕ) (s : State) : Prop where
  writing : s.tftpWriting = false
  addr : s.loadAddr = loadAddr
  port : s.tftpOurPort = srv.clientPort
  phase : s.tftpState ∈ [TftpState.sendRrq, .oack, .data, .tooLarge]
  remote : s.tftpState ≠ .sendRrq → s.tftpRemotePort = srv.port
  wrap : ¬ AwaitsFirst s → s.tftpBlockWrapOffset = 0
  unsized : s.tftpState = .sendRrq → s.tftpBlkSize = tftpBlockSize
  sized : s.tftpState ≠ .sendRrq → s.tftpBlkSize = srv.blkSize

/-- The blocks `held` are in the RAM, and nothing else has been stored. -/
structure Stored (loadAddr : ℕ) (ram : ℕ → UInt8) (c : Client) (held : Finset ℕ) : Prop where
  ram_eq : ∀ a < 2 ^ 32, c.ram a = overlay srv loadAddr ram held a
  mem : ∀ k ∈ held, 1 ≤ k ∧ k ≤ srv.last ∧ ¬ Refused ramSize srv loadAddr k

/-- What the client takes for received is held. -/
structure Current (s : State) (held : Finset ℕ) : Prop where
  block : s.tftpBlock = 0 ∨ s.tftpBlock ∈ held
  lastBlock : AwaitsFirst s ∨ s.tftpLastBlock = 0 ∨ s.tftpLastBlock ∈ held

/-- Only blocks that are held are acknowledged. -/
def Acknowledges (sent : List Sent) (held : Finset ℕ) : Prop :=
  ∀ n, Sent.ack n ∈ sent → n = 0 ∨ n ∈ held

/-- What handling packets and timeouts does to a client that holds `held`, with a server at
block `b`. -/
structure Advances (loadAddr : ℕ) (ram : ℕ → UInt8) (b : ℕ) (c : Client) (held : Finset ℕ)
    (h : Handled) (held' : Finset ℕ) : Prop where
  sub : held ⊆ held'
  loading : Loading srv loadAddr h.client.globals
  stored : Stored ramSize srv loadAddr ram h.client held'
  stores : ∀ st ∈ h.stores, ∃ k, 1 ≤ k ∧ k ≤ b ∧ ¬ Refused ramSize srv loadAddr k ∧
    st = ((loadAddr + (k - 1) * srv.blkSize) % 2 ^ 32, (srv.piece k).length)
  size : c.globals.netBootFileXferSize = held.sup srv.stop →
    h.client.globals.netBootFileXferSize = held'.sup srv.stop
  begun : c.globals.tftpState ≠ .sendRrq → h.client.globals.tftpState ≠ .sendRrq
  acked : ∀ n, Sent.ack n ∈ h.sent → h.client.globals.tftpState ≠ .sendRrq
  going : h.client.globals.netState = .continue → c.globals.netState = .continue
  current : h.client.globals.netState = .continue → Current c.globals held →
    Current h.client.globals held' ∧ Acknowledges h.sent held'
  success : h.client.globals.netState = .success → c.globals.netState = .success ∨
    srv.last ≤ b ∧ (Refused ramSize srv loadAddr srv.last ∨ srv.last ∈ held')

section Client

variable {ramSize srv} {loadAddr b k : ℕ} {ram : ℕ → UInt8} {c : Client} {s : State} {p : Packet}
  {held : Finset ℕ}

/-- Block `k` is stored unless it is refused. -/
theorem storeBlock_piece (ramSize : ℕ) (haddr : s.loadAddr = loadAddr)
    (hwrap : s.tftpBlockWrapOffset = 0)
    (hsize : s.tftpBlkSize = srv.blkSize) (hk : 1 ≤ k) (hlast : k ≤ srv.last) :
    storeBlock ramSize s ((k + 2 ^ 32 - 1) % 2 ^ 32) (srv.piece k).length =
      if Refused ramSize srv loadAddr k then
        ({ s with tftpState := .tooLarge, netState := .fail }, [])
      else
        ({ s with netBootFileXferSize := max s.netBootFileXferSize (srv.stop k) },
          [((loadAddr + (k - 1) * srv.blkSize) % 2 ^ 32, (srv.piece k).length)]) := by
  have hlt := last_lt srv
  have hstop := stop_lt hk hlast
  have hblock : (k + 2 ^ 32 - 1) % 2 ^ 32 = k - 1 := by omega
  have hoffset : ((k - 1) * srv.blkSize + 0) % 2 ^ 32 = (k - 1) * srv.blkSize := by
    rw [Server.stop] at hstop
    omega
  have hnewsize : ((k - 1) * srv.blkSize + (srv.piece k).length) % 2 ^ 32 = srv.stop k :=
    Nat.mod_eq_of_lt hstop
  have hend : (loadAddr + srv.stop k) % 2 ^ 32 =
      ((loadAddr + (k - 1) * srv.blkSize) % 2 ^ 32 + (srv.piece k).length) % 2 ^ 32 := by
    rw [Server.stop, Nat.mod_add_mod, Nat.add_assoc]
  unfold storeBlock
  dsimp only
  rw [hblock, hsize, hwrap, hoffset, hnewsize, haddr, hend]
  rfl

theorem stored_insert (hstored : Stored ramSize srv loadAddr ram c held) (hk : 1 ≤ k)
    (hlast : k ≤ srv.last) (hclear : ¬ Refused ramSize srv loadAddr k) {c' : Client}
    (hram : c'.ram = Memory.store (2 ^ 32) c.ram ((loadAddr + (k - 1) * srv.blkSize) % 2 ^ 32)
      (srv.piece k)) :
    Stored ramSize srv loadAddr ram c' (insert k held) where
  ram_eq a ha := by
    rw [hram, Memory.store_congr (hstored.ram_eq a ha), store_overlay hk hlast ha]
  mem j hj := by
    rcases Finset.mem_insert.mp hj with rfl | hj
    · exact ⟨hk, hlast, hclear⟩
    · exact hstored.mem j hj

/-- A data packet that comes to `store_block`, in the globals `t`. -/
theorem handle_store (hstored : Stored ramSize srv loadAddr ram c held) {t : State}
    (hload : Loading srv loadAddr t) (hfirst : ¬ AwaitsFirst t) (hblock : t.tftpBlock = k)
    (hnew : t.tftpBlock ≠ t.tftpLastBlock) (hnet : t.netState = c.globals.netState)
    (hxfer : t.netBootFileXferSize = c.globals.netBootFileXferSize)
    (hhandler : tftpHandler ramSize c.globals (srv.dataPacket k) =
      handleBlock ramSize t (srv.dataPacket k))
    (hsends : handlerSends ramSize c.globals (srv.dataPacket k) =
      blockSends ramSize t (srv.dataPacket k))
    (hk : 1 ≤ k) (hb : k ≤ b) (hlast : k ≤ srv.last) :
    ∃ held', Advances ramSize srv loadAddr ram b c held (c.handle ramSize (srv.dataPacket k))
      held' := by
  subst hblock
  have hphase : t.tftpState = .data ∨ t.tftpState = .tooLarge := by
    have hmem := hload.phase
    simp only [AwaitsFirst, List.mem_cons, List.not_mem_nil, or_false] at hmem hfirst
    tauto
  have hstarted : t.tftpState ≠ .sendRrq := by
    rcases hphase with hp | hp <;> simp [hp]
  have hsize : t.tftpBlkSize = srv.blkSize := hload.sized hstarted
  have hlen : (srv.dataPacket t.tftpBlock).len - 4 = (srv.piece t.tftpBlock).length :=
    dataPacket_len _
  have hpiece := storeBlock_piece ramSize
    (s := { t with tftpLastBlock := t.tftpBlock }) hload.addr (hload.wrap hfirst) hsize hk hlast
  have hshort := length_piece_lt_iff hk hlast
  rw [← hlen] at hpiece
  rw [← hlen, ← hsize] at hshort
  by_cases href : Refused ramSize srv loadAddr t.tftpBlock
  · -- the block is refused, and a last one completes the transfer all the same
    rw [if_pos href] at hpiece
    obtain ⟨hresult, hsent⟩ := handleBlock_of_reading hload.writing hnew hpiece
    obtain ⟨c', heq, hglobals, hram⟩ := handle_of_eq (hhandler.trans hresult) (hsends.trans hsent)
    rw [heq]
    refine ⟨held, Finset.Subset.refl _, ?_, ⟨?_, hstored.mem⟩, by simp, ?_, ?_, ?_, ?_, ?_, ?_⟩
    · rw [hglobals]
      exact ⟨hload.writing, hload.addr, hload.port, by simp, fun _ => hload.remote hstarted,
        fun _ => hload.wrap hfirst, fun h => (TftpState.noConfusion h), fun _ => hsize⟩
    · rw [hram]
      exact hstored.ram_eq
    · rw [hglobals]
      exact hxfer.trans
    · rw [hglobals]
      exact fun _ => TftpState.noConfusion
    · intro n hn
      rw [hglobals]
      exact TftpState.noConfusion
    · rw [hglobals]
      intro hgoing
      dsimp only at hgoing
      split at hgoing <;> cases hgoing
    · rw [hglobals]
      intro hgoing
      dsimp only at hgoing
      split at hgoing <;> cases hgoing
    · rw [hglobals]
      intro hsuccess
      dsimp only at hsuccess
      split at hsuccess
      · rename_i hcond
        have hk := hshort.mp hcond
        exact Or.inr ⟨hk ▸ hb, Or.inl (hk ▸ href)⟩
      · cases hsuccess
  · rw [if_neg href] at hpiece
    obtain ⟨hresult, hsent⟩ := handleBlock_of_reading hload.writing hnew hpiece
    obtain ⟨c', heq, hglobals, hram⟩ := handle_of_eq (hhandler.trans hresult) (hsends.trans hsent)
    rw [heq]
    have hself := Finset.mem_insert_self t.tftpBlock held
    refine ⟨insert t.tftpBlock held, Finset.subset_insert _ _, ?_,
      stored_insert hstored hk hlast href ?_, ?_, ?_, ?_, ?_, ?_, ?_, ?_⟩
    · rw [hglobals]
      exact ⟨hload.writing, hload.addr, hload.port, hload.phase, hload.remote,
        fun _ => hload.wrap hfirst, fun h => absurd h hstarted, fun _ => hsize⟩
    · rw [hram, List.foldl_cons, List.foldl_nil, hlen, dataPacket_payload]
    · intro st hst
      obtain rfl := List.mem_singleton.mp hst
      exact ⟨_, hk, hb, href, by rw [hlen]⟩
    · rw [hglobals]
      intro hsup
      rw [Finset.sup_insert, ← hsup, ← hxfer]
      exact Nat.max_comm _ _
    · rw [hglobals]
      exact fun _ => hstarted
    · intro n hn
      rw [hglobals]
      exact hstarted
    · rw [hglobals]
      intro hgoing
      dsimp only at hgoing
      split at hgoing
      · cases hgoing
      · exact hnet.symm.trans hgoing
    · intro _ hcurrent
      rw [hglobals]
      refine ⟨⟨Or.inr hself, Or.inr (Or.inr hself)⟩, fun n hn => ?_⟩
      obtain ⟨-, -, hblock⟩ := block_of_tftpPacket (List.mem_singleton.mp hn).symm
      have hlt := last_lt srv
      rw [hblock, Nat.mod_eq_of_lt (by dsimp only; omega)]
      exact Or.inr hself
    · rw [hglobals]
      intro hsuccess
      dsimp only at hsuccess
      split at hsuccess
      · rename_i hcond
        have hk := hshort.mp hcond
        exact Or.inr ⟨hk ▸ hb, Or.inr (hk ▸ hself)⟩
      · exact Or.inl (hnet.symm.trans hsuccess)

/-- Nothing is stored, and at most an acknowledgement of the block the client is at is sent. -/
theorem advances_of_quiet (hstored : Stored ramSize srv loadAddr ram c held) {c' : Client}
    {sent : List Sent} (hload : Loading srv loadAddr c'.globals) (hram : c'.ram = c.ram)
    (hbegun : c.globals.tftpState ≠ .sendRrq → c'.globals.tftpState ≠ .sendRrq)
    (hsent : ∀ n, Sent.ack n ∈ sent →
      c'.globals.tftpState ≠ .sendRrq ∧ n = c'.globals.tftpBlock % 2 ^ 16)
    (hsize : c'.globals.netBootFileXferSize = c.globals.netBootFileXferSize)
    (hgoing : c'.globals.netState = .continue → c.globals.netState = .continue ∧
      (Current c.globals held → Current c'.globals held))
    (hsuccess : c'.globals.netState = .success → c.globals.netState = .success) :
    Advances ramSize srv loadAddr ram b c held ⟨c', [], sent⟩ held where
  sub := Finset.Subset.refl _
  loading := hload
  stored := ⟨by rw [hram]; exact hstored.ram_eq, hstored.mem⟩
  stores := by simp
  size := hsize.trans
  begun := hbegun
  acked n hn := (hsent n hn).1
  going h := (hgoing h).1
  current h hcurrent := by
    have hcurrent' := (hgoing h).2 hcurrent
    refine ⟨hcurrent', fun n hn => ?_⟩
    rw [(hsent n hn).2]
    rcases hcurrent'.block with hzero | hheld
    · exact Or.inl (by rw [hzero]; rfl)
    · have hle := (hstored.mem _ hheld).2.1
      have hlt := last_lt srv
      rw [Nat.mod_eq_of_lt (by omega)]
      exact Or.inr hheld
  success h := Or.inl (hsuccess h)

/-- **A data packet of the server.** -/
theorem handle_data (hload : Loading srv loadAddr c.globals)
    (hstored : Stored ramSize srv loadAddr ram c held) (hsize : c.globals.tftpBlkSize = srv.blkSize)
    (hk : 1 ≤ k) (hb : k ≤ b) (hlast : k ≤ srv.last) :
    ∃ held', Advances ramSize srv loadAddr ram b c held (c.handle ramSize (srv.dataPacket k))
      held' := by
  have hblock : (srv.dataPacket k).ntohs 2 = k := dataPacket_block hlast
  have hlen : 4 ≤ (srv.dataPacket k).len := Nat.le_add_right _ _
  have hadm : Admitted c.globals (srv.dataPacket k) := by
    refine ⟨hload.port.symm, ?_, by omega⟩
    by_cases hstate : c.globals.tftpState = .sendRrq
    · exact Or.inl hstate
    · exact Or.inr (Or.inl (hload.remote hstate).symm)
  have hdata := tftpHandler_data ramSize hadm (dataPacket_op k) hlen (by omega)
  rw [hblock] at hdata
  by_cases hfirst : AwaitsFirst c.globals
  · rw [if_pos hfirst] at hdata
    by_cases hone : k = 1
    · rw [if_neg (not_not.mpr hone), Prod.mk.injEq] at hdata
      have hstate : (firstBlock c.globals (srv.dataPacket k)).tftpState = .data := rfl
      have hnumber : (firstBlock c.globals (srv.dataPacket k)).tftpBlock = k := hblock
      have hnone : (firstBlock c.globals (srv.dataPacket k)).tftpLastBlock = 0 := rfl
      have hload' : Loading srv loadAddr (firstBlock c.globals (srv.dataPacket k)) :=
        ⟨hload.writing, hload.addr, hload.port, by simp [hstate], fun _ => rfl, fun _ => rfl,
          fun h => TftpState.noConfusion h, fun _ => hsize⟩
      refine handle_store hstored hload' ?_ hnumber ?_ rfl rfl hdata.1 hdata.2 hk hb hlast
      · simp [AwaitsFirst, hstate]
      · omega
    · -- a first block that is not block 1
      rw [if_pos hone, Prod.mk.injEq] at hdata
      obtain ⟨c', heq, hglobals, hram⟩ := handle_of_eq hdata.1 hdata.2
      rw [heq]
      refine ⟨held, advances_of_quiet hstored ?_ hram ?_ (by simp) ?_ ?_ ?_⟩
      · rw [hglobals]
        have hstate : (netStartAgain (firstBlock c.globals (srv.dataPacket k))).tftpState = .data := rfl
        exact ⟨hload.writing, hload.addr, hload.port, by simp [hstate], fun _ => rfl, fun _ => rfl,
          fun h => TftpState.noConfusion h, fun _ => hsize⟩
      all_goals rw [hglobals]
      · exact fun _ => TftpState.noConfusion
      · rfl
      · exact NetState.noConfusion
      · exact NetState.noConfusion
  · rw [if_neg hfirst, Prod.mk.injEq] at hdata
    have hload' : Loading srv loadAddr { c.globals with tftpBlock := k } :=
      ⟨hload.writing, hload.addr, hload.port, hload.phase, hload.remote, hload.wrap, hload.unsized,
        hload.sized⟩
    by_cases hnew : k = c.globals.tftpLastBlock
    · -- the same block again
      rw [handleBlock, if_pos hnew, blockSends, if_pos hnew] at hdata
      obtain ⟨c', heq, hglobals, hram⟩ := handle_of_eq hdata.1 hdata.2
      rw [heq]
      refine ⟨held, advances_of_quiet hstored ?_ hram ?_ (by simp) ?_ ?_ ?_⟩
      all_goals rw [hglobals]
      · exact hload'
      · exact id
      · refine fun hgoing => ⟨hgoing, fun hcurrent => ⟨Or.inr ?_, hcurrent.lastBlock⟩⟩
        rcases hcurrent.lastBlock with hawaits | hzero | hheld
        · exact absurd hawaits hfirst
        · omega
        · exact hnew ▸ hheld
      · exact id
    · exact handle_store hstored hload' hfirst rfl hnew rfl rfl hdata.1 hdata.2 hk hb hlast

/-- **An acknowledgement of options.** -/
theorem handle_oack (hload : Loading srv loadAddr c.globals)
    (hstored : Stored ramSize srv loadAddr ram c held) (hp : p ∈ srv.oack) :
    Advances ramSize srv loadAddr ram b c held (c.handle ramSize p) held := by
  obtain ⟨hop, hsrc, hdest, hlen, hread⟩ := srv.oack_reads p hp
  have hadm : Admitted c.globals p := by
    refine ⟨hdest.trans hload.port.symm, ?_, hlen⟩
    by_cases hstate : c.globals.tftpState = .sendRrq
    · exact Or.inl hstate
    · exact Or.inr (Or.inl (hsrc.trans (hload.remote hstate).symm))
  have hsize : oackBlkSize p (p.len - 2) c.globals.tftpBlkSize = srv.blkSize := by
    by_cases hstate : c.globals.tftpState = .sendRrq
    · rw [hload.unsized hstate, hread]
    · rw [hload.sized hstate, oackBlkSize_again hread]
  obtain ⟨hhandler, hsends⟩ := tftpHandler_oack ramSize hload.writing hadm hop
  rw [hsize] at hhandler hsends
  obtain ⟨c', heq, hglobals, hram⟩ := handle_of_eq hhandler hsends
  rw [heq]
  refine advances_of_quiet hstored ?_ hram ?_ ?_ ?_ ?_ ?_
  all_goals rw [hglobals]
  · exact ⟨hload.writing, hload.addr, hload.port, by simp, fun _ => hsrc,
      fun h => absurd (by simp [AwaitsFirst]) h, fun h => TftpState.noConfusion h, fun _ => rfl⟩
  · exact fun _ => TftpState.noConfusion
  · intro n hn
    obtain ⟨hstate, -, hblock⟩ := block_of_tftpPacket (List.mem_singleton.mp hn).symm
    exact ⟨hstate, hblock⟩
  · exact fun hgoing => ⟨hgoing, fun hcurrent =>
      ⟨hcurrent.block, Or.inl (by simp [AwaitsFirst])⟩⟩
  · exact id

/-- **A foreign packet.** -/
theorem handle_foreign (hload : Loading srv loadAddr c.globals)
    (hstored : Stored ramSize srv loadAddr ram c held) (hp : Foreign srv c.globals p) :
    Advances ramSize srv loadAddr ram b c held (c.handle ramSize p) held := by
  have hother : Admitted c.globals p → p.ntohs 0 ≠ 3 ∧ p.ntohs 0 ≠ 6 := by
    rintro ⟨hdest, hsrc, -⟩
    rcases hp with hp | hp | ⟨hp, hstate⟩
    · exact absurd hdest hp
    · exact hp
    · have hmem := hload.phase
      rw [hload.remote hstate] at hsrc
      rcases hsrc with h | h | h | h
      · exact absurd h hstate
      · exact absurd h hp
      · simp [h] at hmem
      · simp [h] at hmem
  obtain ⟨hsends, hsame | ⟨n, hcontinue, hsuccess, hsame⟩⟩ :=
    tftpHandler_other ramSize hload.writing hother
  · obtain ⟨c', heq, hglobals, hram⟩ := handle_of_eq hsame hsends
    rw [heq]
    refine advances_of_quiet hstored ?_ hram ?_ (by simp) ?_ ?_ ?_
    all_goals rw [hglobals]
    · exact hload
    · exact id
    · exact fun hgoing => ⟨hgoing, id⟩
    · exact id
  · obtain ⟨c', heq, hglobals, hram⟩ := handle_of_eq hsame hsends
    rw [heq]
    refine advances_of_quiet hstored ?_ hram ?_ (by simp) ?_ ?_ ?_
    all_goals rw [hglobals]
    · exact ⟨hload.writing, hload.addr, hload.port, hload.phase, hload.remote, hload.wrap,
        hload.unsized, hload.sized⟩
    · exact id
    · exact fun hgoing => absurd hgoing hcontinue
    · exact fun h => absurd h hsuccess

/-- **The timeout.** -/
theorem timeout_advances (hload : Loading srv loadAddr c.globals)
    (hstored : Stored ramSize srv loadAddr ram c held) :
    Advances ramSize srv loadAddr ram b c held c.timeout held := by
  have hwaits : c.globals.tftpState ≠ .recvWrq := by
    intro hstate
    have hmem := hload.phase
    simp [hstate] at hmem
  rw [Client.timeout]
  dsimp only
  by_cases hcount : timeoutCount < c.tftpTimeoutCount + 1
  · rw [if_pos hcount]
    exact advances_of_quiet hstored
      ⟨hload.writing, hload.addr, hload.port, hload.phase, hload.remote, hload.wrap, hload.unsized,
        hload.sized⟩ rfl id (by simp) rfl NetState.noConfusion NetState.noConfusion
  · rw [if_neg hcount, if_neg hwaits, tftpSend_of_reading hload.writing]
    refine advances_of_quiet hstored hload rfl id ?_ rfl (fun hgoing => ⟨hgoing, id⟩) id
    intro n hn
    obtain ⟨hstate, -, hblock⟩ := block_of_tftpPacket (List.mem_singleton.mp hn).symm
    exact ⟨hstate, hblock⟩

/-- What is done one after the other. -/
theorem Advances.trans {h h' : Handled} {held' held'' : Finset ℕ}
    (hfst : Advances ramSize srv loadAddr ram b c held h held')
    (hsnd : Advances ramSize srv loadAddr ram b h.client held' h' held'') :
    Advances ramSize srv loadAddr ram b c held
      ⟨h'.client, h.stores ++ h'.stores, h.sent ++ h'.sent⟩ held'' where
  sub := hfst.sub.trans hsnd.sub
  loading := hsnd.loading
  stored := hsnd.stored
  stores st hst := by
    rcases List.mem_append.mp hst with hst | hst
    · exact hfst.stores st hst
    · exact hsnd.stores st hst
  size h := hsnd.size (hfst.size h)
  begun h := hsnd.begun (hfst.begun h)
  acked n hn := by
    rcases List.mem_append.mp hn with hn | hn
    · exact hsnd.begun (hfst.acked n hn)
    · exact hsnd.acked n hn
  going h := hfst.going (hsnd.going h)
  current h hcurrent := by
    obtain ⟨hcurrent', hacks⟩ := hfst.current (hsnd.going h) hcurrent
    obtain ⟨hcurrent'', hacks'⟩ := hsnd.current h hcurrent'
    refine ⟨hcurrent'', fun n hn => ?_⟩
    rcases List.mem_append.mp hn with hn | hn
    · exact (hacks n hn).imp_right fun hheld => hsnd.sub hheld
    · exact hacks' n hn
  success h := by
    rcases hsnd.success h with hbefore | hlast
    · exact (hfst.success hbefore).imp_right (And.imp_right (Or.imp_right fun hheld => hsnd.sub hheld))
    · exact Or.inr hlast

/-- A packet that can come in while the server is at block `b`. -/
def Arrives (srv : Server) (b : ℕ) (s : State) (p : Packet) : Prop :=
  p ∈ srv.oack ∨ (∃ k, 1 ≤ k ∧ k ≤ b ∧ p = srv.dataPacket k) ∨ Foreign srv s p

theorem Arrives.mono {s' : State} (h : Arrives srv b s p) (hload : Loading srv loadAddr s)
    (hload' : Loading srv loadAddr s')
    (hbegun : s.tftpState ≠ .sendRrq → s'.tftpState ≠ .sendRrq) : Arrives srv b s' p := by
  refine h.imp_right (Or.imp_right fun hforeign => ?_)
  rcases hforeign with hdest | hop | ⟨hsrc, hstate⟩
  · exact Or.inl (by rw [hload'.port, ← hload.port]; exact hdest)
  · exact Or.inr (Or.inl hop)
  · exact Or.inr (Or.inr ⟨hsrc, hbegun hstate⟩)

/-- The packets of one `eth_rx`. -/
theorem receive_advances {ps : List Packet} (hload : Loading srv loadAddr c.globals)
    (hstored : Stored ramSize srv loadAddr ram c held) (hlast : b ≤ srv.last)
    (hbegun : 1 ≤ b → srv.blkSize = tftpBlockSize ∨ c.globals.tftpState ≠ .sendRrq)
    (hps : ∀ p ∈ ps, Arrives srv b c.globals p) :
    ∃ held', Advances ramSize srv loadAddr ram b c held (c.receive ramSize ps) held' := by
  induction ps generalizing c held with
  | nil =>
    exact ⟨held, advances_of_quiet hstored hload rfl id (by simp) rfl (fun h => ⟨h, id⟩) id⟩
  | cons p ps ih =>
    obtain ⟨hp, hps⟩ := List.forall_mem_cons.mp hps
    obtain ⟨held', hone⟩ :
        ∃ held', Advances ramSize srv loadAddr ram b c held (c.handle ramSize p) held' := by
      rcases hp with hoack | ⟨k, hk, hb, rfl⟩ | hforeign
      · exact ⟨held, handle_oack hload hstored hoack⟩
      · have hsize : c.globals.tftpBlkSize = srv.blkSize := by
          by_cases hstate : c.globals.tftpState = .sendRrq
          · rw [hload.unsized hstate]
            exact ((hbegun (by omega)).resolve_right (not_not.mpr hstate)).symm
          · exact hload.sized hstate
        exact handle_data hload hstored hsize hk hb (by omega)
      · exact ⟨held, handle_foreign hload hstored hforeign⟩
    obtain ⟨held'', hrest⟩ := ih hone.loading hone.stored
      (fun h => (hbegun h).imp_right hone.begun)
      fun q hq => (hps q hq).mono hload hone.loading hone.begun
    exact ⟨held'', hone.trans hrest⟩

/-- **A round of the network loop.** -/
theorem poll_advances {ps : List Packet} (timesOut : Bool) (hload : Loading srv loadAddr c.globals)
    (hstored : Stored ramSize srv loadAddr ram c held) (hlast : b ≤ srv.last)
    (hbegun : 1 ≤ b → srv.blkSize = tftpBlockSize ∨ c.globals.tftpState ≠ .sendRrq)
    (hps : ∀ p ∈ ps, Arrives srv b c.globals p) (hgoing : c.globals.netState = .continue) :
    ∃ held', Advances ramSize srv loadAddr ram b c held (c.poll ramSize ps timesOut) held' := by
  obtain ⟨held', hreceive⟩ := receive_advances hload hstored hlast hbegun hps
  rw [Client.poll, if_neg (not_not.mpr hgoing)]
  dsimp only
  cases timesOut
  · exact ⟨held', hreceive⟩
  · have htimeout := timeout_advances (b := b) hreceive.loading hreceive.stored
    have htrans := hreceive.trans htimeout
    have hquiet : (c.receive ramSize ps).client.timeout.stores = [] := by
      rw [Client.timeout]
      dsimp only
      split
      · rfl
      split <;> rfl
    rw [hquiet, List.append_nil] at htrans
    exact ⟨held', htrans⟩

end Client

end Tftp
