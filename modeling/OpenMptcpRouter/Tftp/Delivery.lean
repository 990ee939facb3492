/-
A file loaded over a network that loses, repeats and reorders packets.

* `world_inv` — in every world that can be reached, each byte of the RAM is that of the
  file or what it was before, and only blocks that are held are acknowledged;
* `transfer_exact` — **a transfer that ends in success has stored the file and nothing
  else**, up to a last block that `store_block` refuses: the success of the last block
  overrides the failure of its store;
* `transfer_clear` — and it has stored nothing at a protected address or below the load base.
-/
import OpenMptcpRouter.Tftp.Transfer

namespace Tftp

variable (ramSize : ℕ) (srv : Server)

/-! ### The invariant -/

/-- A transfer that goes on. -/
structure Going (loadAddr : ℕ) (w : World) (held : Finset ℕ) : Prop where
  loading : Loading srv loadAddr w.client.globals
  current : Current w.client.globals held
  size : w.client.globals.netBootFileXferSize = held.sup srv.stop
  acks : Acknowledges w.up held
  acked : ∀ n, Sent.ack n ∈ w.up → w.client.globals.tftpState ≠ .sendRrq
  begun : 1 ≤ w.block → srv.blkSize = tftpBlockSize ∨ w.client.globals.tftpState ≠ .sendRrq
  block_le : w.block ≤ srv.last
  down : ∀ p ∈ w.down, p ∈ srv.oack ∨ ∃ k, 1 ≤ k ∧ k ≤ w.block ∧ p = srv.dataPacket k
  behind : ∀ k, 1 ≤ k → k < w.block → k ∈ held

/-- The invariant of the world. -/
structure WorldInv (loadAddr : ℕ) (ram : ℕ → UInt8) (w : World) (held : Finset ℕ) : Prop where
  stored : Stored ramSize srv loadAddr ram w.client held
  going : w.client.globals.netState = .continue → Going srv loadAddr w held
  success : w.client.globals.netState = .success →
    w.client.globals.netBootFileXferSize = held.sup srv.stop ∧
      ∀ k, 1 ≤ k → k ≤ srv.last →
        k ∈ held ∨ k = srv.last ∧ Refused ramSize srv loadAddr srv.last

section Runs

variable {ramSize srv} {loadAddr : ℕ} {ram : ℕ → UInt8} {c : Client} {w : World} {a : Action}
  {held : Finset ℕ}

theorem arrives_of_possible (hgoing : Going srv loadAddr w held) {ps : List Packet} {timesOut : Bool}
    (hposs : w.Possible srv (.poll ps timesOut)) :
    ∀ p ∈ ps, Arrives srv w.block w.client.globals p := by
  intro p hp
  rcases hposs p hp with hdown | hforeign
  · rcases hgoing.down p hdown with hoack | hdata
    · exact Or.inl hoack
    · exact Or.inr (Or.inl hdata)
  · exact Or.inr (Or.inr hforeign)

/-- Once the loop has been left, the client does nothing. -/
theorem step_of_left (hleft : w.client.globals.netState ≠ .continue) :
    (w.step ramSize srv a).1.client = w.client ∧ (w.step ramSize srv a).2 = [] := by
  cases a with
  | poll ps timesOut =>
    have hpoll : w.client.poll ramSize ps timesOut = ⟨w.client, [], []⟩ := if_pos hleft
    rw [World.step, hpoll]
    exact ⟨rfl, rfl⟩
  | serve m => exact ⟨rfl, rfl⟩

/-- **A round of the client's loop.** -/
theorem worldInv_poll (hinv : WorldInv ramSize srv loadAddr ram w held) {ps : List Packet}
    {timesOut : Bool} (hposs : w.Possible srv (.poll ps timesOut)) :
    ∃ held', WorldInv ramSize srv loadAddr ram (w.step ramSize srv (.poll ps timesOut)).1 held' ∧
      ∀ st ∈ (w.step ramSize srv (.poll ps timesOut)).2, ∃ k, 1 ≤ k ∧ k ≤ srv.last ∧
        (∀ j, 1 ≤ j → j ≤ k → ¬ Refused ramSize srv loadAddr j) ∧
        st = ((loadAddr + (k - 1) * srv.blkSize) % 2 ^ 32, (srv.piece k).length) := by
  by_cases hcontinue : w.client.globals.netState = .continue
  case neg =>
    obtain ⟨hclient, hstores⟩ := step_of_left (a := .poll ps timesOut) hcontinue
    refine ⟨held, ⟨?_, ?_, ?_⟩, ?_⟩
    · rw [hclient]
      exact hinv.stored
    · rw [hclient]
      exact fun h => absurd h hcontinue
    · rw [hclient]
      exact hinv.success
    · simp [hstores]
  have hgoing := hinv.going hcontinue
  obtain ⟨held', hadv⟩ := poll_advances timesOut hgoing.loading hinv.stored hgoing.block_le
    hgoing.begun (arrives_of_possible hgoing hposs) hcontinue
  refine ⟨held', ⟨hadv.stored, fun h => ?_, fun h => ⟨hadv.size hgoing.size, fun k hk hlast => ?_⟩⟩,
    fun st hst => ?_⟩
  · obtain ⟨hcurrent, hacks⟩ := hadv.current h hgoing.current
    refine ⟨hadv.loading, hcurrent, hadv.size hgoing.size, fun n hn => ?_, fun n hn => ?_,
      fun hb => (hgoing.begun hb).imp_right hadv.begun, hgoing.block_le, hgoing.down,
      fun k hk hlt => hadv.sub (hgoing.behind k hk hlt)⟩
    · rcases List.mem_append.mp hn with hn | hn
      · exact (hgoing.acks n hn).imp_right fun hheld => hadv.sub hheld
      · exact hacks n hn
    · rcases List.mem_append.mp hn with hn | hn
      · exact hadv.begun (hgoing.acked n hn)
      · exact hadv.acked n hn
  · -- a short block came in, so the server is at the last one
    rcases hadv.success h with hbefore | ⟨hle, hend⟩
    · rw [hcontinue] at hbefore
      cases hbefore
    · have hblock := hgoing.block_le
      rcases Nat.lt_or_ge k srv.last with hlt | hge
      · exact Or.inl (hadv.sub (hgoing.behind k hk (by omega)))
      · obtain rfl : k = srv.last := by omega
        exact hend.symm.imp_right fun href => ⟨rfl, href⟩
  · obtain ⟨k, hk, hb, href, rfl⟩ := hadv.stores st hst
    have hblock := hgoing.block_le
    refine ⟨k, hk, by omega, fun j hj hjk => ?_, rfl⟩
    rcases Nat.lt_or_ge j k with hlt | hge
    · exact (hinv.stored.mem j (hgoing.behind j hj (by omega))).2.2
    · obtain rfl : j = k := by omega
      exact href

/-- **A packet the server receives.** -/
theorem worldInv_serve (hinv : WorldInv ramSize srv loadAddr ram w held) {m : Sent}
    (hm : m ∈ w.up) : WorldInv ramSize srv loadAddr ram (w.step ramSize srv (.serve m)).1 held := by
  refine ⟨hinv.stored, fun h => ?_, hinv.success⟩
  have hgoing := hinv.going h
  have hsame : Going srv loadAddr { w with block := w.block, down := w.down ++ [] } held := by
    rw [List.append_nil]
    exact hgoing
  rw [World.step]
  dsimp only
  cases m with
  | request opcode =>
    rw [Server.serve]
    cases hoack : srv.oack with
    | some p =>
      refine ⟨hgoing.loading, hgoing.current, hgoing.size, hgoing.acks, hgoing.acked, hgoing.begun,
        hgoing.block_le, fun q hq => ?_, hgoing.behind⟩
      rcases List.mem_append.mp hq with hq | hq
      · exact hgoing.down q hq
      · exact Or.inl (by rw [hoack, List.mem_singleton.mp hq]; rfl)
    | none =>
      refine ⟨hgoing.loading, hgoing.current, hgoing.size, hgoing.acks, hgoing.acked,
        fun _ => Or.inl (srv.oack_none hoack), ?_, fun q hq => ?_, fun k hk hlt => ?_⟩
      · have hblock := hgoing.block_le
        have hlast : 1 ≤ srv.last := Nat.le_add_left _ _
        exact Nat.max_le.mpr ⟨hblock, hlast⟩
      · rcases List.mem_append.mp hq with hq | hq
        · refine (hgoing.down q hq).imp_right ?_
          rintro ⟨k, hk, hb, rfl⟩
          exact ⟨k, hk, hb.trans (Nat.le_max_left _ _), rfl⟩
        · exact Or.inr ⟨1, Nat.le_refl _, Nat.le_max_right _ _, List.mem_singleton.mp hq⟩
      · refine hgoing.behind k hk ?_
        dsimp only at hlt
        omega
  | ack n =>
    rw [Server.serve]
    by_cases hnext : n = w.block ∧ w.block < srv.last
    · -- the block the server is at has been acknowledged
      obtain ⟨rfl, hlast⟩ := id hnext
      rw [if_pos hnext]
      refine ⟨hgoing.loading, hgoing.current, hgoing.size, hgoing.acks, hgoing.acked,
        fun _ => Or.inr (hgoing.acked _ hm), hlast, fun q hq => ?_, fun k hk hlt => ?_⟩
      · rcases List.mem_append.mp hq with hq | hq
        · refine (hgoing.down q hq).imp_right ?_
          rintro ⟨k, hk, hb, rfl⟩
          exact ⟨k, hk, Nat.le_succ_of_le hb, rfl⟩
        · exact Or.inr ⟨_, Nat.le_add_left _ _, Nat.le_refl _, List.mem_singleton.mp hq⟩
      · rcases Nat.lt_succ_iff_lt_or_eq.mp hlt with hlt | rfl
        · exact hgoing.behind k hk hlt
        · exact (hgoing.acks _ hm).resolve_left (by omega)
    · rw [if_neg hnext]
      exact hsame
  | data block bytes => exact hsame
  | error code text => exact hsame

/-- **One action.** -/
theorem worldInv_step (hinv : ∃ held, WorldInv ramSize srv loadAddr ram w held)
    (hposs : w.Possible srv a) :
    ∃ held, WorldInv ramSize srv loadAddr ram (w.step ramSize srv a).1 held := by
  obtain ⟨held, hinv⟩ := hinv
  cases a with
  | poll ps timesOut =>
    obtain ⟨held', hinv', -⟩ := worldInv_poll hinv hposs
    exact ⟨held', hinv'⟩
  | serve m => exact ⟨held, worldInv_serve hinv hposs⟩

theorem overlay_empty (loadAddr : ℕ) (ram : ℕ → UInt8) : overlay srv loadAddr ram ∅ = ram := by
  funext a
  exact if_neg (Finset.notMem_empty _)

/-- The world in which the request has been sent, or refused for its address. -/
theorem worldInv_start (c : Client) (loadAddr : ℕ) :
    ∃ held, WorldInv ramSize srv loadAddr c.ram (World.start ramSize srv c loadAddr) held := by
  have hram : (World.start ramSize srv c loadAddr).client.ram = c.ram := rfl
  refine ⟨∅, ⟨?_, by simp⟩, ?_, ?_⟩
  · intro a _
    rw [hram, overlay_empty]
  all_goals
    simp only [World.start, Client.start, tftpStart, Bool.false_eq_true, if_false]
    by_cases haddr : loadAddr < sysLoadAddr ∨ loadAddr ≥ sdramEnd ramSize ∨
      (loadAddr ≥ ipqTftpMaxAddr ∧ loadAddr < tzEndAddr)
  · rw [if_pos haddr]
    exact NetState.noConfusion
  · rw [if_neg haddr]
    intro _
    refine ⟨⟨rfl, rfl, rfl, by simp, fun h => absurd rfl h, fun h => absurd (by simp [AwaitsFirst]) h,
      fun _ => rfl, fun h => absurd rfl h⟩, ⟨Or.inl rfl, Or.inl (by simp [AwaitsFirst])⟩, rfl, ?_, ?_,
      by simp, Nat.zero_le _, by simp, by simp⟩
    all_goals
      intro n hn
      simp [Client.tftpPacket] at hn
  · rw [if_pos haddr]
    exact NetState.noConfusion
  · rw [if_neg haddr]
    exact NetState.noConfusion

/-- **The world that can be reached.** -/
theorem world_inv {as : List Action}
    (hrun : Run.AllSteps (World.step ramSize srv) (World.Possible srv)
      (World.start ramSize srv c loadAddr) as) :
    ∃ held, WorldInv ramSize srv loadAddr c.ram
      (Run.exec (World.step ramSize srv) (World.start ramSize srv c loadAddr) as) held :=
  Run.exec_invariant (fun w => ∃ held, WorldInv ramSize srv loadAddr c.ram w held)
    (fun _ _ hinv hposs => worldInv_step hinv hposs) (worldInv_start c loadAddr) hrun

/-! ### What has been delivered -/

theorem stop_eq {k : ℕ} (hk : 1 ≤ k) (hlast : k ≤ srv.last) :
    srv.stop k = min (k * srv.blkSize) srv.file.length := by
  have hdiv := Nat.div_mul_le_self srv.file.length srv.blkSize
  obtain ⟨j, rfl⟩ : ∃ j, k = j + 1 := ⟨k - 1, by omega⟩
  have hle : j * srv.blkSize ≤ srv.file.length / srv.blkSize * srv.blkSize :=
    Nat.mul_le_mul_right _ (by rw [Server.last] at hlast; omega)
  rw [Server.stop, length_piece, Nat.add_sub_cancel, Nat.succ_mul]
  omega

/-- The last block begins inside the file, and ends with it. -/
theorem last_spec (srv : Server) : (srv.last - 1) * srv.blkSize ≤ srv.file.length ∧
    srv.file.length < srv.last * srv.blkSize := by
  have hdiv := Nat.div_add_mod' srv.file.length srv.blkSize
  have hmod := Nat.mod_lt srv.file.length srv.blkSize_pos
  rw [Server.last, Nat.add_sub_cancel, Nat.succ_mul]
  omega

variable (ramSize srv loadAddr) in
/-- What a transfer that ends in success has stored: the file, or all but its last block. -/
def delivered : List UInt8 :=
  if Refused ramSize srv loadAddr srv.last then srv.file.take ((srv.last - 1) * srv.blkSize)
  else srv.file

/-- The blocks that are held are those of what is delivered. -/
theorem mem_held_iff (hstored : Stored ramSize srv loadAddr ram c held)
    (hall : ∀ k, 1 ≤ k → k ≤ srv.last →
      k ∈ held ∨ k = srv.last ∧ Refused ramSize srv loadAddr srv.last) {o : ℕ}
    (ho : o < srv.file.length) :
    o / srv.blkSize + 1 ∈ held ↔ o < (delivered ramSize srv loadAddr).length := by
  obtain ⟨hbegin, hend⟩ := last_spec srv
  have hpos := srv.blkSize_pos
  have hle : o / srv.blkSize + 1 ≤ srv.last :=
    Nat.succ_le_succ (Nat.div_le_div_right (Nat.le_of_lt ho))
  rw [delivered]
  by_cases href : Refused ramSize srv loadAddr srv.last
  · rw [if_pos href, List.length_take, Nat.min_eq_left hbegin, ← Nat.div_lt_iff_lt_mul hpos]
    constructor
    · intro hheld
      have hne : o / srv.blkSize + 1 ≠ srv.last := fun heq => (hstored.mem _ hheld).2.2 (heq ▸ href)
      exact Nat.lt_sub_of_add_lt (Nat.lt_of_le_of_ne hle hne)
    · intro hlt
      exact (hall _ (Nat.le_add_left _ _) hle).resolve_right fun h =>
        absurd h.1 (Nat.ne_of_lt (Nat.add_lt_of_lt_sub hlt))
  · rw [if_neg href]
    exact iff_of_true ((hall _ (Nat.le_add_left _ _) hle).resolve_right fun h => href h.2) ho

/-- The number of bytes reported is the number of bytes delivered. -/
theorem sup_stop (hstored : Stored ramSize srv loadAddr ram c held)
    (hall : ∀ k, 1 ≤ k → k ≤ srv.last →
      k ∈ held ∨ k = srv.last ∧ Refused ramSize srv loadAddr srv.last) :
    held.sup srv.stop = (delivered ramSize srv loadAddr).length := by
  obtain ⟨hbegin, hend⟩ := last_spec srv
  have hone : 1 ≤ srv.last := Nat.le_add_left _ _
  rw [delivered]
  by_cases href : Refused ramSize srv loadAddr srv.last
  · rw [if_pos href, List.length_take, Nat.min_eq_left hbegin]
    refine Nat.le_antisymm (Finset.sup_le fun k hheld => ?_) ?_
    · obtain ⟨hk, hlast, hclear⟩ := hstored.mem k hheld
      have hne : k ≠ srv.last := fun heq => hclear (heq ▸ href)
      rw [stop_eq hk hlast]
      exact (Nat.min_le_left _ _).trans (Nat.mul_le_mul_right _ (by omega))
    · rcases Nat.eq_or_lt_of_le hone with heq | hlt
      · rw [← heq, Nat.sub_self, Nat.zero_mul]
        exact Nat.zero_le _
      · have hheld : srv.last - 1 ∈ held :=
          (hall _ (by omega) (by omega)).resolve_right fun h => by omega
        have hstop : srv.stop (srv.last - 1) = (srv.last - 1) * srv.blkSize := by
          rw [stop_eq (by omega) (by omega), Nat.min_eq_left hbegin]
        exact hstop ▸ Finset.le_sup hheld
  · rw [if_neg href]
    refine Nat.le_antisymm (Finset.sup_le fun k hheld => ?_) ?_
    · obtain ⟨hk, hlast, -⟩ := hstored.mem k hheld
      rw [stop_eq hk hlast]
      exact Nat.min_le_right _ _
    · have hheld : srv.last ∈ held := (hall _ hone (Nat.le_refl _)).resolve_right fun h => href h.2
      have hstop : srv.stop srv.last = srv.file.length := by
        rw [stop_eq hone (Nat.le_refl _), Nat.min_eq_right (Nat.le_of_lt hend)]
      exact hstop ▸ Finset.le_sup hheld

/-- **A file over a network that loses, repeats and reorders packets.**  In every run the
bytes outside the file stay as they are; and when the client reports success, the RAM holds
what was delivered and nothing else has changed. -/
theorem transfer_exact (ramSize : ℕ) (srv : Server) (c : Client) (loadAddr : ℕ) (as : List Action)
    (hrun : Run.AllSteps (World.step ramSize srv) (World.Possible srv)
      (World.start ramSize srv c loadAddr) as) :
    let c' := (Run.exec (World.step ramSize srv) (World.start ramSize srv c loadAddr) as).client
    (∀ a < 2 ^ 32, srv.file.length ≤ offsetOf loadAddr a → c'.ram a = c.ram a) ∧
      (c'.globals.netState = .success →
        Memory.slice (2 ^ 32) c'.ram loadAddr (delivered ramSize srv loadAddr).length =
            delivered ramSize srv loadAddr ∧
          (∀ a < 2 ^ 32, (delivered ramSize srv loadAddr).length ≤ offsetOf loadAddr a →
            c'.ram a = c.ram a) ∧
          c'.globals.netBootFileXferSize = (delivered ramSize srv loadAddr).length) := by
  intro c'
  obtain ⟨held, hinv⟩ := world_inv hrun
  have hram := hinv.stored.ram_eq
  have houtside : ∀ a < 2 ^ 32, srv.file.length ≤ offsetOf loadAddr a → c'.ram a = c.ram a := by
    intro a ha hoff
    rw [hram a ha, overlay, List.getD_eq_default _ _ hoff, ite_self]
  refine ⟨houtside, fun hsuccess => ?_⟩
  obtain ⟨hsize, hall⟩ := hinv.success hsuccess
  have hmem : ∀ {o}, o < srv.file.length →
      (o / srv.blkSize + 1 ∈ held ↔ o < (delivered ramSize srv loadAddr).length) :=
    fun ho => mem_held_iff hinv.stored hall ho
  have hprefix : delivered ramSize srv loadAddr <+: srv.file := by
    rw [delivered]
    split
    · exact List.take_prefix _ _
    · exact List.prefix_refl _
  have hle := hprefix.length_le
  refine ⟨?_, ?_, hsize.trans (sup_stop hinv.stored hall)⟩
  · refine List.ext_getElem (by simp) fun i hi hi' => ?_
    have hlt : i < srv.file.length := by omega
    have hfits := (last_spec srv).2.trans (mul_blkSize_lt (Nat.le_refl srv.last))
    have hoff : offsetOf loadAddr ((loadAddr + i) % 2 ^ 32) = i := by
      rw [offsetOf]
      omega
    simp only [Memory.slice, List.getElem_map, List.getElem_range]
    rw [hram _ (Nat.mod_lt _ (by decide)), overlay, hoff, if_pos ((hmem hlt).mpr hi'),
      List.getD_eq_getElem _ _ hlt, hprefix.getElem hi']
  · intro a ha hoff
    rcases Nat.lt_or_ge (offsetOf loadAddr a) srv.file.length with hlt | hge
    · rw [hram a ha, overlay, if_neg fun hheld => absurd ((hmem hlt).mp hheld) (by omega)]
    · exact houtside a ha hge

end Runs

/-- A server with three bytes, as they are asked for from port 2000. -/
def threeBytes : Server where
  file := [1, 2, 3]
  port := 3000
  clientPort := 2000
  blkSize := tftpBlockSize
  oack := none
  blkSize_pos := by decide
  blkSize_lt := by decide
  oack_reads := by simp
  oack_none := fun _ => rfl
  short := by decide

/-- A client over RAM filled with zeros. -/
def zeroClient : Client := ⟨idle, fun _ => 0, 0, 0⟩

/-- The request is received, the block comes in twice. -/
def threeBytesRun : List Action :=
  [.serve (.request 1), .poll [threeBytes.dataPacket 1, threeBytes.dataPacket 1] false]

theorem threeBytesRun_possible (loadAddr : ℕ)
    (h : (World.start 0x10000000 threeBytes zeroClient loadAddr).up = [.request 1]) :
    Run.AllSteps (World.step 0x10000000 threeBytes) (World.Possible threeBytes)
      (World.start 0x10000000 threeBytes zeroClient loadAddr) threeBytesRun := by
  refine ⟨?_, ?_, trivial⟩
  · change Sent.request 1 ∈ (World.start 0x10000000 threeBytes zeroClient loadAddr).up
    rw [h]
    exact List.mem_singleton_self _
  · intro p hp
    have hdata : p = threeBytes.dataPacket 1 := by simpa using hp
    exact Or.inl (hdata ▸ List.mem_singleton_self _)

theorem transfer_exact_threeBytes :
    Memory.slice (2 ^ 32) (Run.exec (World.step 0x10000000 threeBytes)
      (World.start 0x10000000 threeBytes zeroClient 0x84000000) threeBytesRun).client.ram
      0x84000000 3 = [1, 2, 3] :=
  ((transfer_exact 0x10000000 threeBytes zeroClient 0x84000000 threeBytesRun
    (threeBytesRun_possible _ (by decide))).2 (by decide)).1

/-- A last block that is refused: the transfer ends in success all the same. -/
example :
    (Run.exec (World.step 0x10000000 threeBytes)
        (World.start 0x10000000 threeBytes zeroClient 0x86ffffff) threeBytesRun).client.globals.netState =
        .success ∧
      delivered 0x10000000 threeBytes 0x86ffffff = [] := by decide

/-! ### The protected addresses -/

/-- `TftpStart` takes the load address. -/
def Allowed (ramSize loadAddr : ℕ) : Prop :=
  sysLoadAddr ≤ loadAddr ∧ loadAddr < sdramEnd ramSize ∧
    (loadAddr < ipqTftpMaxAddr ∨ tzEndAddr ≤ loadAddr)

section Clear

variable {ramSize srv} {loadAddr k : ℕ}

/-- Blocks that are stored one after the other stay on the side of the protected region they
begin on. -/
theorem begin_clear (hram : sdramBase + ramSize + 2 ^ 16 ≤ 2 ^ 32)
    (haddr : Allowed ramSize loadAddr) (hk : 1 ≤ k) (hlast : k ≤ srv.last)
    (hclear : ∀ j, 1 ≤ j → j < k → ¬ Refused ramSize srv loadAddr j) :
    loadAddr + (k - 1) * srv.blkSize < sdramEnd ramSize ∧
      (loadAddr + (k - 1) * srv.blkSize < ipqTftpMaxAddr ∨
        tzEndAddr ≤ loadAddr + (k - 1) * srv.blkSize) := by
  have hend : sdramEnd ramSize = sdramBase + ramSize := Nat.mod_eq_of_lt (by omega)
  have hsize := srv.blkSize_lt
  induction k with
  | zero => omega
  | succ k ih =>
    rcases Nat.eq_zero_or_pos k with rfl | hpos
    · simpa using haddr.2
    obtain ⟨hlt, hside⟩ := ih hpos (by omega) fun j hj hjk => hclear j hj (by omega)
    have hfull : (srv.piece k).length = srv.blkSize := by
      have hiff : (srv.piece k).length < srv.blkSize ↔ k = srv.last :=
        length_piece_lt_iff hpos (by omega)
      have hle : (srv.piece k).length ≤ srv.blkSize := length_piece_le k
      omega
    -- the block in front ends where this one begins
    have hnext : (k + 1 - 1) * srv.blkSize = (k - 1) * srv.blkSize + srv.blkSize := by
      rw [← Nat.succ_mul]
      congr 1
      omega
    have hfront := hclear k hpos (Nat.lt_succ_self k)
    rw [Refused, EndsInTheWay, hfull] at hfront
    simp only [ipqTftpMaxAddr, tzEndAddr] at *
    generalize (k - 1) * srv.blkSize = x at *
    rw [Nat.mod_eq_of_lt (by omega), Nat.mod_eq_of_lt (by omega)] at hfront
    rw [hnext]
    omega

/-- No byte below the load base is stored. -/
def StoresAbove (stores : Stores) : Prop :=
  ∀ st ∈ stores, ∀ i < st.2, sysLoadAddr ≤ (st.1 + i) % 2 ^ 32

/-- A block that is stored behind stored blocks is clear, and lies above the load base. -/
theorem stores_clear (hram : sdramBase + ramSize + 2 ^ 16 ≤ 2 ^ 32)
    (haddr : Allowed ramSize loadAddr) (hk : 1 ≤ k) (hlast : k ≤ srv.last)
    (hclear : ∀ j, 1 ≤ j → j ≤ k → ¬ Refused ramSize srv loadAddr j) :
    StoresClear ramSize
        [((loadAddr + (k - 1) * srv.blkSize) % 2 ^ 32, (srv.piece k).length)] ∧
      StoresAbove [((loadAddr + (k - 1) * srv.blkSize) % 2 ^ 32, (srv.piece k).length)] := by
  have hend : sdramEnd ramSize = sdramBase + ramSize := Nat.mod_eq_of_lt (by omega)
  have hsize := srv.blkSize_lt
  have hle : (srv.piece k).length ≤ srv.blkSize := length_piece_le k
  obtain ⟨hlt, hside⟩ := begin_clear hram haddr hk hlast fun j hj hjk => hclear j hj (by omega)
  have hfits : loadAddr + (k - 1) * srv.blkSize < 2 ^ 32 := by omega
  have hrefused := hclear k hk (Nat.le_refl k)
  rw [Refused, Nat.mod_eq_of_lt hfits] at hrefused
  rw [Nat.mod_eq_of_lt hfits, storesClear_iff hfits hrefused]
  constructor
  · refine Or.inr ⟨by omega, ?_⟩
    rw [EndsInTheWay, Nat.mod_eq_of_lt (by omega)] at hrefused
    simp only [ipqTftpMaxAddr, tzEndAddr] at *
    omega
  · intro st hst i hi
    obtain rfl := List.mem_singleton.mp hst
    have hbase := haddr.1
    dsimp only at hi ⊢
    rw [Nat.mod_eq_of_lt (by omega)]
    omega

/-- **Nothing is stored at a protected address**, and nothing below the load base.  With such a
server, and RAM that leaves room for one block below the end of the address space, `store_block`
keeps the client clear of what it must not overwrite. -/
theorem transfer_clear (ramSize : ℕ) (srv : Server) (c : Client) (loadAddr : ℕ) (as : List Action)
    (hram : sdramBase + ramSize + 2 ^ 16 ≤ 2 ^ 32)
    (hrun : Run.AllSteps (World.step ramSize srv) (World.Possible srv)
      (World.start ramSize srv c loadAddr) as) :
    ∀ stores ∈ Run.outputs (World.step ramSize srv) (World.start ramSize srv c loadAddr) as,
      StoresClear ramSize stores ∧ StoresAbove stores := by
  rw [Run.forall_mem_outputs_iff]
  refine Run.allSteps_of_invariant
    (fun w => (∃ held, WorldInv ramSize srv loadAddr c.ram w held) ∧
      (w.client.globals.netState = .continue → Allowed ramSize loadAddr)) ?_ ?_
    ⟨worldInv_start c loadAddr, ?_⟩ hrun
  · rintro w a ⟨hinv, haddr⟩ hposs
    refine ⟨worldInv_step hinv hposs, fun h => haddr ?_⟩
    by_contra hleft
    rw [(step_of_left hleft).1] at h
    exact hleft h
  · rintro w a ⟨⟨held, hinv⟩, haddr⟩ hposs
    by_cases hcontinue : w.client.globals.netState = .continue
    case neg =>
      rw [(step_of_left hcontinue).2]
      exact ⟨storesClear_nil, fun _ hst => absurd hst List.not_mem_nil⟩
    cases a with
    | serve m => exact ⟨storesClear_nil, fun _ hst => absurd hst List.not_mem_nil⟩
    | poll ps timesOut =>
      obtain ⟨-, -, hstores⟩ := worldInv_poll hinv hposs
      have hblock : ∀ st ∈ (World.step ramSize srv w (.poll ps timesOut)).2,
          StoresClear ramSize [st] ∧ StoresAbove [st] := by
        intro st hst
        obtain ⟨k, hk, hlast, hclear, rfl⟩ := hstores st hst
        exact stores_clear hram (haddr hcontinue) hk hlast hclear
      exact ⟨fun st hst => (hblock st hst).1 st (List.mem_singleton_self _),
        fun st hst => (hblock st hst).2 st (List.mem_singleton_self _)⟩
  · -- the request is sent for an address that is allowed
    simp only [World.start, Client.start, tftpStart, Bool.false_eq_true, if_false]
    by_cases haddr : loadAddr < sysLoadAddr ∨ loadAddr ≥ sdramEnd ramSize ∨
      (loadAddr ≥ ipqTftpMaxAddr ∧ loadAddr < tzEndAddr)
    · rw [if_pos haddr]
      exact NetState.noConfusion
    · intro _
      rw [Allowed]
      omega

end Clear

theorem transfer_clear_threeBytes :
    StoresClear 0x10000000 [(0x84000000, 3)] ∧ StoresAbove [(0x84000000, 3)] :=
  transfer_clear 0x10000000 threeBytes zeroClient 0x84000000 threeBytesRun (by decide)
    (threeBytesRun_possible _ (by decide)) _ (by decide)

end Tftp
