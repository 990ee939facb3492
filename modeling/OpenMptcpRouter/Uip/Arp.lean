/-
The ARP cache under the web server (`httpd/uip_arp.c`) and the frames it decides about.

The cache has two entries.  `uip_arp_update` learns an address, `uip_arp_timer` drops old
entries, and `uip_arp_out` looks up the station a packet is sent to.  Three things in the
source are easily overlooked: an entry counts as used only if both halves of its address are
non-zero; when no entry is free the search for the oldest one leaves `tabptr` at the last
entry, which is overwritten whatever the search found; and the age of an entry is taken from
two 8-bit times as an `int`, so that it may be negative.

* `Host` — the stack with its cache, `NetReceiveHttpd` and `HttpdHandler` with what they send;
* `update_spec` — what learning an address changes;
* `coherent_step`, `reaches_run` — a packet goes to the station its address was last learned
  from, and what is sent in answer to a frame goes back to where the frame came from;
* `first_kept_iff` — the first entry is dropped after 120 ticks, or never.
-/
import OpenMptcpRouter.Uip.Calls

namespace Uip

open Httpd (Fs)

/-! ### The cache -/

/-- An Ethernet address. -/
abbrev EthAddr := List UInt8

/-- `struct arp_entry`. -/
structure ArpEntry where
  ipaddr : ℕ
  ethaddr : EthAddr
  time : UInt8
  deriving DecidableEq, Repr

/-- `UIP_ARP_MAXAGE`. -/
def arpMaxage : ℤ := 120

/-- Both halves of the address are non-zero. -/
def Halved (ip : ℕ) : Prop := ip / 2 ^ 16 ≠ 0 ∧ ip % 2 ^ 16 ≠ 0

instance : DecidablePred Halved := fun ip => by unfold Halved; infer_instance

/-- The table of `UIP_ARPTAB_SIZE` entries and the time. -/
structure Arp where
  table : Fin 2 → ArpEntry
  arptime : UInt8

/-- The cache after the globals have been cleared and `uip_arp_init`. -/
def Arp.start : Arp where
  table := fun _ => { ipaddr := 0, ethaddr := List.replicate 6 0, time := 0 }
  arptime := 0

def Arp.set (a : Arp) (i : Fin 2) (ip : ℕ) (mac : EthAddr) : Arp :=
  { a with table := Function.update a.table i { ipaddr := ip, ethaddr := mac, time := a.arptime } }

/-- `uip_arp_update`. -/
def Arp.update (a : Arp) (ip : ℕ) (mac : EthAddr) : Arp :=
  match (List.finRange 2).find? fun i => Halved (a.table i).ipaddr ∧ ip = (a.table i).ipaddr with
  | some i => a.set i ip mac
  | none =>
    match (List.finRange 2).find? fun i => (a.table i).ipaddr = 0 with
    | some i => a.set i ip mac
    | none =>
      -- `i` is set to the oldest entry, but `tabptr` has come to the last one
      a.set (Fin.last 1) ip mac

/-- `uip_arp_timer`. -/
def Arp.timer (a : Arp) : Arp :=
  let now := a.arptime + 1
  { table := fun i =>
      let e := a.table i
      if e.ipaddr ≠ 0 ∧ arpMaxage ≤ (now.toNat : ℤ) - e.time.toNat then { e with ipaddr := 0 } else e
    arptime := now }

/-- `uip_arp_out`: the station for a next hop. -/
def Arp.lookup (a : Arp) (ip : ℕ) : Option EthAddr :=
  ((List.finRange 2).find? fun i => ip = (a.table i).ipaddr).map fun i => (a.table i).ethaddr

/-! ### The host -/

/-- A frame the server sends, with its destination. -/
inductive Frame
  | ip (dest : EthAddr) (target : ℕ) (packet : Packet)
  | arpRequest (target : ℕ)
  | arpReply (dest : EthAddr) (target : ℕ)
  deriving DecidableEq

/-- The stack, its cache, and `arptimer`. -/
structure Host where
  stack : Stack
  arp : Arp
  arptimer : ℕ

def Host.start (hostaddr : ℕ) (ram : Httpd.Ram) : Host where
  stack := Uip.start hostaddr ram
  arp := .start
  arptimer := 0

/-- The address is in the local network, with netmask 255.255.255.0. -/
def Local (hostaddr ip : ℕ) : Prop := ip / 2 ^ 8 = hostaddr / 2 ^ 8

instance (hostaddr ip : ℕ) : Decidable (Local hostaddr ip) := by unfold Local; infer_instance

/-- The next hop for an address; no default router is set. -/
def nextHop (hostaddr ip : ℕ) : ℕ := if Local hostaddr ip then ip else 0

/-- `uip_arp_out` for a packet to `ip`: an ARP request overwrites a packet whose next hop is
not in the cache. -/
def Arp.out (a : Arp) (hostaddr ip : ℕ) (packet : Packet) : Frame :=
  match a.lookup (nextHop hostaddr ip) with
  | some mac => .ip mac ip packet
  | none => .arpRequest (nextHop hostaddr ip)

/-- `ethhdr.src`. -/
def Buf.ethSrc (b : Buf) : EthAddr := bytesAt b 6 6

/-! The fields of an ARP packet (`struct arp_hdr_httpd`). -/

def Buf.opcode (b : Buf) : ℕ := be16 b 20
def Buf.shwaddr (b : Buf) : EthAddr := bytesAt b 22 6
def Buf.sipaddr (b : Buf) : ℕ := be32 b 28
def Buf.dipaddr (b : Buf) : ℕ := be32 b 38

/-- What a step learns, if anything: an address and its station. -/
abbrev Learned := Option (ℕ × EthAddr)

/-- `uip_arp_ipin`: what is learned of an IP frame. -/
def ipinLearns (hostaddr : ℕ) (b : Buf) : Learned :=
  if Local hostaddr b.srcipaddr then some (b.srcipaddr, b.ethSrc) else none

/-- `uip_arp_arpin`: what is learned of an ARP frame of `len` bytes. -/
def arpinLearns (hostaddr : ℕ) (b : Buf) (len : ℕ) : Learned :=
  if 42 ≤ len ∧ b.opcode = 2 ∧ b.dipaddr = hostaddr then some (b.sipaddr, b.shwaddr) else none

/-- `uip_arp_arpin`: the reply to a request. -/
def arpinReply (hostaddr : ℕ) (b : Buf) (len : ℕ) : List Frame :=
  if 42 ≤ len ∧ b.opcode = 1 ∧ b.dipaddr = hostaddr then [.arpReply b.shwaddr b.sipaddr] else []

def Arp.learn (a : Arp) : Learned → Arp
  | some (ip, mac) => a.update ip mac
  | none => a

/-- The packet `NetReceiveHttpd` sends: `uip_len` is still 0 in the answer to a ping whose IP
length is 0. -/
def answer (r : Result) (b : Buf) : Option Packet :=
  if r.sent = some .echoReply ∧ b.ipLen = 0 then none else r.sent

/-- `NetReceiveHttpd`, with what is learned and sent.  Every packet goes to the address the
frame came from. -/
def Host.receive (fs : Fs) (h : Host) (x : Rx) : Host × Learned × List Frame :=
  let len := u16 x.frame.length
  if x.buf.ethType = 0x0800 then
    let learned := ipinLearns h.stack.hostaddr x.buf
    let arp := h.arp.learn learned
    let r := netReceiveHttpd fs h.stack x
    ({ h with stack := r.stack, arp := arp }, learned,
      (answer r x.buf).toList.map (arp.out h.stack.hostaddr x.buf.srcipaddr))
  else if x.buf.ethType = 0x0806 then
    let learned := arpinLearns h.stack.hostaddr x.buf len
    ({ h with arp := h.arp.learn learned }, learned, arpinReply h.stack.hostaddr x.buf len)
  else (h, none, [])

/-- One connection's turn in `HttpdHandler`. -/
def Host.periodic (fs : Fs) (h : Host) (i : Fin 2) (b : Buf) : Host × List Frame :=
  let r := uipPeriodic fs h.stack i b
  ({ h with stack := r.stack },
    r.sent.toList.map (h.arp.out h.stack.hostaddr (h.stack.conns i).ripaddr))

/-- `HttpdHandler`, over the memory the two calls of `uip_periodic` see. -/
def Host.handler (fs : Fs) (h : Host) (b b' : Buf) : Host × List Frame :=
  let r := h.periodic fs ⟨0, Nat.zero_lt_two⟩ b
  let r' := r.1.periodic fs (Fin.last 1) b'
  let h' := r'.1
  if h'.arptimer + 1 = 20 then
    ({ h' with arp := h'.arp.timer, arptimer := 0 }, r.2 ++ r'.2)
  else ({ h' with arptimer := h'.arptimer + 1 }, r.2 ++ r'.2)

/-- What happens to the host. -/
inductive HostInput
  | frame (x : Rx)
  | handler (b b' : Buf)

/-- One step of the host, with what it learns and sends. -/
def Host.step (fs : Fs) (h : Host) (input : HostInput) : Host × Learned × List Frame :=
  if h.stack.hung then (h, none, [])
  else
    match input with
    | .frame x => h.receive fs x
    | .handler b b' => ((h.handler fs b b').1, none, (h.handler fs b b').2)

/-! ### What the cache holds -/

/-- The station last learned for each address. -/
abbrev Book := ℕ → Option EthAddr

def Book.note (book : Book) : Learned → Book
  | some (ip, mac) => Function.update book ip (some mac)
  | none => book

/-- Addresses with two non-zero halves have at most one entry, with the station last learned. -/
structure Coherent (book : Book) (a : Arp) : Prop where
  last : ∀ i, Halved (a.table i).ipaddr → book (a.table i).ipaddr = some (a.table i).ethaddr
  unique : ∀ i j, Halved (a.table i).ipaddr → (a.table i).ipaddr = (a.table j).ipaddr → i = j

section Cache

variable {a : Arp} {book : Book} {ip : ℕ} {mac : EthAddr} {i j : Fin 2}

@[simp] theorem Arp.set_arptime (a : Arp) (i : Fin 2) (ip : ℕ) (mac : EthAddr) :
    (a.set i ip mac).arptime = a.arptime := rfl

theorem Arp.set_self (a : Arp) (i : Fin 2) (ip : ℕ) (mac : EthAddr) :
    (a.set i ip mac).table i = { ipaddr := ip, ethaddr := mac, time := a.arptime } :=
  Function.update_self ..

theorem Arp.set_of_ne (h : j ≠ i) : (a.set i ip mac).table j = a.table j :=
  Function.update_of_ne h ..

/-- **Learning an address** overwrites its entry, or, when it has none, a free one or the
last one. -/
theorem update_spec (a : Arp) (ip : ℕ) (mac : EthAddr) :
    ∃ i, a.update ip mac = a.set i ip mac ∧
      (Halved ip ∧ ip = (a.table i).ipaddr ∨
        (∀ j, Halved (a.table j).ipaddr → ip ≠ (a.table j).ipaddr) ∧
          ((a.table i).ipaddr = 0 ∨ i = 1)) := by
  rw [Arp.update]
  rcases hfound : (List.finRange 2).find? fun i =>
      Halved (a.table i).ipaddr ∧ ip = (a.table i).ipaddr with _ | i
  · have hnone : ∀ j, Halved (a.table j).ipaddr → ip ≠ (a.table j).ipaddr := by
      intro j hhalved heq
      have hj := List.find?_eq_none.mp hfound j (List.mem_finRange j)
      exact hj (by simpa using ⟨hhalved, heq⟩)
    rcases hfree : (List.finRange 2).find? fun i => (a.table i).ipaddr = 0 with _ | i
    · exact ⟨1, rfl, Or.inr ⟨hnone, Or.inr rfl⟩⟩
    · have hzero := List.find?_some hfree
      exact ⟨i, rfl, Or.inr ⟨hnone, Or.inl (by simpa using hzero)⟩⟩
  · have hsome := List.find?_some hfound
    simp only [decide_eq_true_eq] at hsome
    exact ⟨i, rfl, Or.inl ⟨hsome.2 ▸ hsome.1, hsome.2⟩⟩

/-- Any other entry has another address. -/
theorem coherent_update (h : Coherent book a) (ip : ℕ) (mac : EthAddr) :
    Coherent (Function.update book ip (some mac)) (a.update ip mac) := by
  obtain ⟨i, heq, hcase⟩ := update_spec a ip mac
  -- no other entry is for the address
  have hother : ∀ j, j ≠ i → Halved (a.table j).ipaddr → (a.table j).ipaddr ≠ ip := by
    intro j hj hhalved hjp
    rcases hcase with ⟨hip, hat⟩ | ⟨hnone, -⟩
    · exact hj (h.unique j i hhalved (hjp.trans hat))
    · exact hnone j hhalved hjp.symm
  rw [heq]
  constructor
  · intro j hhalved
    by_cases hj : j = i
    · rw [hj, Arp.set_self, Function.update_self]
    · rw [Arp.set_of_ne hj] at hhalved ⊢
      rw [Function.update_of_ne (hother j hj hhalved)]
      exact h.last j hhalved
  · intro j k hhalved hjk
    by_cases hj : j = i
    · by_cases hk : k = i
      · exact hj.trans hk.symm
      · rw [hj, Arp.set_self, Arp.set_of_ne hk] at hjk
        rw [hj, Arp.set_self] at hhalved
        exact absurd hjk.symm (hother k hk (hjk ▸ hhalved))
    · rw [Arp.set_of_ne hj] at hhalved hjk
      by_cases hk : k = i
      · rw [hk, Arp.set_self] at hjk
        exact absurd hjk (hother j hj hhalved)
      · rw [Arp.set_of_ne hk] at hjk
        exact h.unique j k hhalved hjk

theorem not_halved_zero : ¬ Halved 0 := by decide

/-- An entry stays as it is, or loses its address. -/
theorem timer_entry (a : Arp) (i : Fin 2) :
    a.timer.table i = a.table i ∨ (a.timer.table i).ipaddr = 0 := by
  rw [Arp.timer]
  dsimp only
  split
  · exact Or.inr rfl
  · exact Or.inl rfl

theorem coherent_timer (h : Coherent book a) : Coherent book a.timer := by
  have hkept : ∀ i, Halved (a.timer.table i).ipaddr → a.timer.table i = a.table i := by
    intro i hhalved
    rcases timer_entry a i with hsame | hzero
    · exact hsame
    · rw [hzero] at hhalved
      exact absurd hhalved not_halved_zero
  constructor
  · intro i hhalved
    have hi := hkept i hhalved
    rw [hi] at hhalved ⊢
    exact h.last i hhalved
  · intro i j hhalved hij
    have hj : a.timer.table j = a.table j := by
      refine hkept j ?_
      rw [← hij]
      exact hhalved
    have hi := hkept i hhalved
    rw [hi, hj] at hij
    rw [hi] at hhalved
    exact h.unique i j hhalved hij

theorem Coherent.learn (h : Coherent book a) (learned : Learned) :
    Coherent (book.note learned) (a.learn learned) := by
  cases learned with
  | none => exact h
  | some entry => exact coherent_update h entry.1 entry.2

/-- What is looked up is what was last learned. -/
theorem Coherent.lookup (h : Coherent book a) (hip : Halved ip) (hfound : a.lookup ip = some mac) :
    book ip = some mac := by
  rw [Arp.lookup, Option.map_eq_some_iff] at hfound
  obtain ⟨i, hi, hmac⟩ := hfound
  have hat := List.find?_some hi
  simp only [decide_eq_true_eq] at hat
  rw [← hmac, hat]
  exact h.last i (hat ▸ hip)

/-- An address that has just been learned is found. -/
theorem Coherent.lookup_update (h : Coherent book a) (hip : Halved ip) (mac : EthAddr) :
    (a.update ip mac).lookup ip = some mac := by
  have hcoherent := coherent_update h ip mac
  obtain ⟨i, heq, -⟩ := update_spec a ip mac
  have hat : ((a.update ip mac).table i).ipaddr = ip := by
    rw [heq, Arp.set_self]
  rcases hfound : (a.update ip mac).lookup ip with _ | mac'
  · rw [Arp.lookup, Option.map_eq_none_iff, List.find?_eq_none] at hfound
    have hi := hfound i (List.mem_finRange i)
    exact absurd (by simpa using hat.symm) hi
  · have hlast := hcoherent.lookup hip hfound
    rw [Function.update_self] at hlast
    exact hlast.symm

end Cache

/-! ### Packets reach their stations -/

/-- The host, and the station last learned for each address. -/
structure Watch where
  host : Host
  book : Book

def Watch.start (hostaddr : ℕ) (ram : Httpd.Ram) : Watch where
  host := .start hostaddr ram
  book := fun _ => none

/-- One step of the host, with the frames sent. -/
def Watch.step (fs : Fs) (w : Watch) (input : HostInput) : Watch × List Frame :=
  let r := w.host.step fs input
  ({ host := r.1, book := w.book.note r.2.1 }, r.2.2)

/-- Packets to the local network go to the station last learned, and the answers to a frame
from the local network back to the station that sent it. -/
structure Reaches (fs : Fs) (w : Watch) (input : HostInput) : Prop where
  last : ∀ mac target packet, .ip mac target packet ∈ (w.step fs input).2 →
    Local w.host.stack.hostaddr target → Halved target →
      (w.step fs input).1.book target = some mac
  answer : ∀ x, input = .frame x → w.host.stack.hung = false → x.buf.ethType = 0x0800 →
    Local w.host.stack.hostaddr x.buf.srcipaddr → Halved x.buf.srcipaddr →
      (w.step fs input).2 = (answer (netReceiveHttpd fs w.host.stack x) x.buf).toList.map
        (.ip x.buf.ethSrc x.buf.srcipaddr)

section Frames

variable {fs : Fs} {a : Arp} {book : Book} {h : Host} {w : Watch} {hostaddr ip target : ℕ}
  {mac : EthAddr} {packet : Packet}

theorem Coherent.out (h : Coherent book a) (hsent : a.out hostaddr ip packet = .ip mac target packet)
    (hlocal : Local hostaddr target) (hhalved : Halved target) : book target = some mac := by
  rw [Arp.out] at hsent
  split at hsent
  · rename_i mac' hfound
    cases hsent
    rw [nextHop, if_pos hlocal] at hfound
    exact h.lookup hhalved hfound
  · exact absurd hsent (by simp)

/-- The packets of one call of `uip_process`. -/
theorem Coherent.mem_map_out (h : Coherent book a) {sent : List Packet}
    (hmem : .ip mac target packet ∈ sent.map (a.out hostaddr ip)) (hlocal : Local hostaddr target)
    (hhalved : Halved target) : book target = some mac := by
  obtain ⟨packet', -, hsent⟩ := List.mem_map.mp hmem
  have hsame : packet' = packet := by
    rw [Arp.out] at hsent
    split at hsent
    · cases hsent
      rfl
    · exact absurd hsent (by simp)
  rw [hsame] at hsent
  exact h.out hsent hlocal hhalved

theorem out_of_lookup (hlocal : Local hostaddr ip) (hfound : a.lookup ip = some mac)
    (packet : Packet) : a.out hostaddr ip packet = .ip mac ip packet := by
  rw [Arp.out, nextHop, if_pos hlocal, hfound]

theorem uipPeriodic_hostaddr (fs : Fs) (u : Stack) (i : Fin 2) (b : Buf) :
    (uipPeriodic fs u i b).stack.hostaddr = u.hostaddr :=
  (uipPeriodic_turn fs u i b).hostaddr

/-- What `HttpdHandler` does to the cache. -/
theorem handler_arp (fs : Fs) (h : Host) (b b' : Buf) :
    (h.handler fs b b').1.arp = if h.arptimer + 1 = 20 then h.arp.timer else h.arp := by
  rw [Host.handler]
  rw [apply_ite Prod.fst, apply_ite Host.arp]
  rfl

/-- What `HttpdHandler` does to the stack. -/
theorem handler_stack (fs : Fs) (h : Host) (b b' : Buf) :
    (h.handler fs b b').1.stack =
      (uipPeriodic fs (uipPeriodic fs h.stack 0 b).stack 1 b').stack := by
  rw [Host.handler]
  rw [apply_ite Prod.fst, apply_ite Host.stack]
  exact ite_self _

theorem handler_arptimer (fs : Fs) (h : Host) (b b' : Buf) :
    (h.handler fs b b').1.arptimer = if h.arptimer + 1 = 20 then 0 else h.arptimer + 1 := by
  rw [Host.handler]
  rw [apply_ite Prod.fst, apply_ite Host.arptimer]
  rfl

theorem hostStep_handler {fs : Fs} {h : Host} (hhung : h.stack.hung = false) (b b' : Buf) :
    h.step fs (.handler b b') = ((h.handler fs b b').1, none, (h.handler fs b b').2) :=
  if_neg (by rw [hhung]; exact Bool.false_ne_true)

theorem step_handler {fs : Fs} {h : Host} (hhung : h.stack.hung = false) (b b' : Buf) :
    (h.step fs (.handler b b')).1.stack =
      (uipPeriodic fs (uipPeriodic fs h.stack 0 b).stack 1 b').stack := by
  rw [hostStep_handler hhung]
  exact handler_stack fs h b b'

/-- **One step of the host** keeps the cache coherent, and its packets reach their stations. -/
theorem coherent_step (hw : Coherent w.book w.host.arp) (input : HostInput) :
    Coherent (w.step fs input).1.book (w.step fs input).1.host.arp ∧ Reaches fs w input := by
  have hstep : w.step fs input =
      (⟨(w.host.step fs input).1, w.book.note (w.host.step fs input).2.1⟩,
        (w.host.step fs input).2.2) := rfl
  by_cases hhung : w.host.stack.hung = true
  · have hidle : w.host.step fs input = (w.host, none, []) := if_pos hhung
    rw [hidle] at hstep
    refine ⟨by rw [hstep]; exact hw, ?_, ?_⟩
    · rw [hstep]
      exact fun _ _ _ hmem => absurd hmem (by simp)
    · intro _ _ hrun
      rw [hhung] at hrun
      exact absurd hrun (by simp)
  cases input with
  | handler b b' =>
    have hhandler : w.host.step fs (.handler b b') =
        ((w.host.handler fs b b').1, none, (w.host.handler fs b b').2) := if_neg hhung
    rw [hhandler] at hstep
    refine ⟨?_, ?_, fun _ hx => by cases hx⟩
    · rw [hstep]
      show Coherent w.book (w.host.handler fs b b').1.arp
      rw [handler_arp]
      split
      · exact coherent_timer hw
      · exact hw
    · rw [hstep]
      intro mac target packet hmem hlocal hhalved
      show w.book target = some mac
      have hframes : (w.host.handler fs b b').2 = (w.host.periodic fs 0 b).2 ++
          ((w.host.periodic fs 0 b).1.periodic fs 1 b').2 := by
        rw [Host.handler]
        rw [apply_ite Prod.snd, ite_self]
        rfl
      rw [hframes, List.mem_append] at hmem
      rcases hmem with hmem | hmem
      · exact hw.mem_map_out hmem hlocal hhalved
      · rw [Host.periodic] at hmem
        refine hw.mem_map_out hmem ?_ hhalved
        show Local (uipPeriodic fs w.host.stack 0 b).stack.hostaddr target
        rw [uipPeriodic_hostaddr]
        exact hlocal
  | frame x =>
    have hreceive : w.host.step fs (.frame x) = w.host.receive fs x := if_neg hhung
    rw [hreceive] at hstep
    by_cases hip : x.buf.ethType = 0x0800
    · rw [Host.receive, if_pos hip] at hstep
      dsimp only at hstep
      have hlearn := hw.learn (ipinLearns w.host.stack.hostaddr x.buf)
      refine ⟨by rw [hstep]; exact hlearn, ?_, ?_⟩
      · rw [hstep]
        intro mac target packet hmem hlocal hhalved
        exact hlearn.mem_map_out hmem hlocal hhalved
      · intro y hy _ _ hlocal hhalved
        cases hy
        rw [hstep]
        have hlearned : ipinLearns w.host.stack.hostaddr x.buf =
            some (x.buf.srcipaddr, x.buf.ethSrc) := if_pos hlocal
        have hfound := hw.lookup_update hhalved x.buf.ethSrc
        refine List.map_congr_left fun packet _ => ?_
        rw [hlearned]
        exact out_of_lookup hlocal hfound packet
    by_cases harp : x.buf.ethType = 0x0806
    · rw [Host.receive, if_neg hip, if_pos harp] at hstep
      dsimp only at hstep
      refine ⟨by rw [hstep]; exact hw.learn _, ?_, ?_⟩
      · rw [hstep]
        intro mac target packet hmem
        dsimp only at hmem
        rw [arpinReply] at hmem
        split at hmem
        · simp at hmem
        · simp at hmem
      · intro y hy _ htype
        cases hy
        exact absurd htype hip
    · rw [Host.receive, if_neg hip, if_neg harp] at hstep
      refine ⟨by rw [hstep]; exact hw, ?_, ?_⟩
      · rw [hstep]
        exact fun _ _ _ hmem => absurd hmem (by simp)
      · intro y hy _ htype
        cases hy
        exact absurd htype hip

end Frames

/-- **Packets reach their stations**, in every run of the host. -/
theorem reaches_run (fs : Fs) (hostaddr : ℕ) (ram : Httpd.Ram) (inputs : List HostInput) :
    Run.AllSteps (Watch.step fs) (Reaches fs) (Watch.start hostaddr ram) inputs := by
  have hstart : Coherent (Watch.start hostaddr ram).book (Watch.start hostaddr ram).host.arp := by
    constructor
    · exact fun i hhalved => absurd hhalved not_halved_zero
    · exact fun i j hhalved _ => absurd hhalved not_halved_zero
  exact Run.allSteps_of_invariant (fun w => Coherent w.book w.host.arp) (P := fun _ _ => True)
    (fun _ input hw _ => (coherent_step hw input).1) (fun _ input hw _ => (coherent_step hw input).2)
    hstart (Run.allSteps_of_forall fun _ _ => trivial)

/-! ### How long an entry is kept -/

/-- How often the timer of the cache goes off in a run. -/
def ticks (fs : Fs) (h : Host) : List HostInput → ℕ
  | [] => 0
  | .frame x :: inputs => ticks fs (h.step fs (.frame x)).1 inputs
  | .handler b b' :: inputs =>
    (if h.stack.hung = false ∧ h.arptimer + 1 = 20 then 1 else 0) +
      ticks fs (h.step fs (.handler b b')).1 inputs

/-- The first entry after `n` ticks, if it was learned for `ip` at time `t`. -/
structure FirstEntry (ip : ℕ) (t : UInt8) (n : ℕ) (a : Arp) : Prop where
  arptime : a.arptime.toNat = (t.toNat + n) % 2 ^ 8
  kept : n < 120 ∨ 135 < t.toNat → (a.table 0).ipaddr = ip ∧ (a.table 0).time = t
  dropped : ¬ (n < 120 ∨ 135 < t.toNat) → (a.table 0).ipaddr ≠ ip

section Ageing

variable {fs : Fs} {a : Arp} {h : Host} {ip n : ℕ} {t : UInt8}

/-- Learning another address leaves the first entry in place. -/
theorem FirstEntry.learn (ha : FirstEntry ip t n a) (hip : ip ≠ 0) {learned : Learned}
    (hother : ∀ mac, learned ≠ some (ip, mac)) : FirstEntry ip t n (a.learn learned) := by
  rcases learned with _ | ⟨ip', mac⟩
  · exact ha
  have hne : ip' ≠ ip := fun h => hother mac (by rw [h])
  obtain ⟨i, heq, hcase⟩ := update_spec a ip' mac
  rw [Arp.learn, heq]
  refine ⟨ha.arptime, fun hkept => ?_, fun hdropped => ?_⟩
  · obtain ⟨hat, htime⟩ := ha.kept hkept
    have hi : (0 : Fin 2) ≠ i := by
      rintro rfl
      rcases hcase with ⟨-, hsame⟩ | ⟨-, hfree | hlast⟩
      · exact hne (hsame.trans hat)
      · exact hip (hat.symm.trans hfree)
      · exact absurd hlast (by decide)
    rw [Arp.set_of_ne hi]
    exact ⟨hat, htime⟩
  · by_cases hi : (0 : Fin 2) = i
    · rw [← hi, Arp.set_self]
      exact hne
    · rw [Arp.set_of_ne hi]
      exact ha.dropped hdropped

/-- One tick: an entry learned by time 135 has its age reach 120; of a later one the time
wraps around first. -/
theorem FirstEntry.timer (ha : FirstEntry ip t n a) (hip : ip ≠ 0) :
    FirstEntry ip t (n + 1) a.timer := by
  have ht := t.toNat_lt
  have hnow : (a.arptime + 1).toNat = (t.toNat + (n + 1)) % 2 ^ 8 := by
    rw [UInt8.toNat_add, ha.arptime]
    show ((t.toNat + n) % 2 ^ 8 + 1) % 2 ^ 8 = _
    omega
  have hentry : a.timer.table 0 = if (a.table 0).ipaddr ≠ 0 ∧
      arpMaxage ≤ ((a.arptime + 1).toNat : ℤ) - (a.table 0).time.toNat then
        { a.table 0 with ipaddr := 0 } else a.table 0 := rfl
  refine ⟨hnow, fun hkept => ?_, fun hdropped => ?_⟩
  · -- too young, or its age comes out negative
    obtain ⟨hat, htime⟩ := ha.kept (by omega)
    rw [hentry, if_neg]
    · exact ⟨hat, htime⟩
    · rw [htime, hnow, arpMaxage]
      omega
  · by_cases hkept : n < 120 ∨ 135 < t.toNat
    · -- this is the tick with which its age is 120
      obtain ⟨hat, htime⟩ := ha.kept hkept
      rw [hentry, if_pos]
      · exact hip.symm
      · rw [hat, htime, hnow, arpMaxage]
        omega
    · rcases timer_entry a 0 with hsame | hzero
      · rw [hsame]
        exact ha.dropped hkept
      · rw [hzero]
        exact hip.symm

/-- What `NetReceiveHttpd` does to the cache. -/
theorem receive_arp (fs : Fs) (h : Host) (x : Rx) :
    (h.receive fs x).1.arp = h.arp.learn (h.receive fs x).2.1 := by
  rw [Host.receive]
  dsimp only
  split
  · rfl
  · split
    · rfl
    · rfl

/-- The ticks of one step. -/
def ticked (h : Host) : HostInput → ℕ
  | .frame _ => 0
  | .handler .. => if h.stack.hung = false ∧ h.arptimer + 1 = 20 then 1 else 0

theorem ticks_cons (fs : Fs) (h : Host) (input : HostInput) (inputs : List HostInput) :
    ticks fs h (input :: inputs) = ticked h input + ticks fs (h.step fs input).1 inputs := by
  cases input with
  | frame x => rw [ticks, ticked, Nat.zero_add]
  | handler b b' => rfl

theorem FirstEntry.step (ha : FirstEntry ip t n h.arp) (hip : ip ≠ 0) (input : HostInput)
    (hother : ∀ mac, (h.step fs input).2.1 ≠ some (ip, mac)) :
    FirstEntry ip t (n + ticked h input) (h.step fs input).1.arp := by
  by_cases hhung : h.stack.hung = true
  · have hidle : h.step fs input = (h, none, []) := if_pos hhung
    have hzero : ticked h input = 0 := by
      cases input with
      | frame x => rfl
      | handler b b' => exact if_neg fun hrun => by simp [hhung] at hrun
    rw [hidle, hzero]
    exact ha
  have hrun : h.stack.hung = false := by simpa using hhung
  cases input with
  | frame x =>
    have hstep : h.step fs (.frame x) = h.receive fs x := if_neg hhung
    rw [hstep] at hother ⊢
    rw [receive_arp]
    exact ha.learn hip hother
  | handler b b' =>
    rw [hostStep_handler hrun, handler_arp]
    by_cases htick : h.arptimer + 1 = 20
    · rw [if_pos htick, ticked, if_pos ⟨hrun, htick⟩]
      exact ha.timer hip
    · rw [if_neg htick, ticked, if_neg fun h => htick h.2]
      exact ha

/-- The run lemma. -/
theorem FirstEntry.run (ha : FirstEntry ip t n h.arp) (hip : ip ≠ 0) (inputs : List HostInput)
    (hquiet : Run.AllSteps (Host.step fs)
      (fun h input => ∀ mac, (h.step fs input).2.1 ≠ some (ip, mac)) h inputs) :
    FirstEntry ip t (n + ticks fs h inputs) (Run.exec (Host.step fs) h inputs).arp := by
  induction inputs generalizing h n with
  | nil => exact ha
  | cons input inputs ih =>
    obtain ⟨hhead, htail⟩ := hquiet
    have hnext := ih (ha.step hip input hhead) htail
    rw [ticks_cons, ← Nat.add_assoc]
    exact hnext

/-- The timer goes off at every twentieth call, whatever the connections do. -/
theorem ticks_handlers (fs : Fs) (b b' : Buf) (calls : ℕ) {h : Host} (hrun : h.stack.hung = false)
    (htimer : h.arptimer < 20) :
    ticks fs h (List.replicate calls (.handler b b')) = (h.arptimer + calls) / 20 := by
  induction calls generalizing h with
  | zero => exact (Nat.div_eq_of_lt htimer).symm
  | succ calls ih =>
    have hrun' : (h.step fs (.handler b b')).1.stack.hung = false := by
      rw [step_handler hrun, (uipPeriodic_turn ..).hung, (uipPeriodic_turn ..).hung, hrun]
    have htimer' : (h.step fs (.handler b b')).1.arptimer =
        if h.arptimer + 1 = 20 then 0 else h.arptimer + 1 := by
      rw [hostStep_handler hrun, handler_arptimer]
    rw [List.replicate_succ, ticks_cons, ih hrun' (by rw [htimer']; split <;> omega), htimer', ticked]
    by_cases htick : h.arptimer + 1 = 20
    · rw [if_pos ⟨hrun, htick⟩, if_pos htick]
      omega
    · rw [if_neg fun h => htick h.2, if_neg htick]
      omega

end Ageing

/-- **The first entry is dropped after 120 ticks, or never.**  As long as its address is not
learned again, the first entry is kept for less than 120 ticks of the timer, whatever else is
learned; and for ever if it was learned later than at time 135. -/
theorem first_kept_iff (fs : Fs) (h : Host) (ip : ℕ) (hip : ip ≠ 0)
    (hat : (h.arp.table 0).ipaddr = ip) (htime : (h.arp.table 0).time = h.arp.arptime)
    (inputs : List HostInput)
    (hquiet : Run.AllSteps (Host.step fs)
      (fun h input => ∀ mac, (h.step fs input).2.1 ≠ some (ip, mac)) h inputs) :
    ((Run.exec (Host.step fs) h inputs).arp.table 0).ipaddr = ip ↔
      ticks fs h inputs < 120 ∨ 135 < h.arp.arptime.toNat := by
  have hfirst : FirstEntry ip h.arp.arptime 0 h.arp := by
    have hlt := h.arp.arptime.toNat_lt
    refine ⟨by omega, fun _ => ⟨hat, htime⟩, fun hdropped => absurd ?_ hdropped⟩
    exact Or.inl (by decide)
  have hrun := hfirst.run hip inputs hquiet
  rw [Nat.zero_add] at hrun
  constructor
  · intro hsame
    by_contra hdropped
    exact hrun.dropped hdropped hsame
  · intro hkept
    exact (hrun.kept hkept).1

/-- A host that has learned one address, just before the timer goes off. -/
def agedHost : Host where
  stack := Uip.start 0xc0a80101 fun _ => 0
  arp := Arp.start.update 0xc0a80102 [2, 0, 0, 0, 0, 7]
  arptimer := 19

/-- After 120 ticks the address is no longer known. -/
theorem first_kept_iff_tick :
    ((Run.exec (Host.step default) agedHost
      (List.replicate 2381 (.handler (fun _ => 0) (fun _ => 0)))).arp.table 0).ipaddr ≠
        0xc0a80102 := by
  intro hkept
  have hfew := (first_kept_iff default agedHost 0xc0a80102 (by decide) (by decide) (by decide) _
    (Run.allSteps_iff.mpr fun before input behind heq => ?_)).mp hkept
  · rw [ticks_handlers default _ _ 2381 rfl (by decide)] at hfew
    exact absurd hfew (by decide)
  · -- the timer learns nothing
    have hmem : input ∈ List.replicate 2381 (HostInput.handler (fun _ => 0) (fun _ => 0)) := by
      rw [heq]
      exact List.mem_append_right _ List.mem_cons_self
    rw [List.eq_of_mem_replicate hmem, Host.step]
    split
    · exact fun _ => nofun
    · exact fun _ => nofun

end Uip
