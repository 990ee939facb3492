/-
Pings and ARP requests are answered.

The checksum of a ping is not computed again for its answer: the difference of the types is
added to it, with the carry.  What comes out is congruent to the right sum; that is not enough
if all else is zero, because the sum of an answer that is all zeros is no right one.

* `echo_right_iff` — when the answer to a ping has the right checksum;
* `hostStep_stack` — a step of the host is a run of its stack;
* `resolves` — **a request and its reply are enough** to reach a station.
-/
import OpenMptcpRouter.Uip.Frames

namespace Uip

open OnesComplement
open Httpd (Fs)

/-! ### Pings -/

/-- The sum of an ICMP message, as its receiver computes it. -/
def icmpSum (b : Buf) : ℕ := chksum 0 (bytesAt b 34 (u16 (b.ipLen - 20)))

section Ping

variable {b : Buf} {c : ℕ}

theorem wordSum_eq_zero (data : List UInt8) : wordSum data = 0 ↔ ∀ x ∈ data, x = 0 := by
  have hzero : ∀ x : UInt8, x.toNat = 0 ↔ x = 0 := fun x => UInt8.toNat_inj (b := 0)
  induction data using wordSum.induct with
  | case1 => simp [wordSum]
  | case2 x =>
    rw [wordSum, List.forall_mem_singleton, ← hzero]
    omega
  | case3 x y rest ih =>
    rw [wordSum, List.forall_mem_cons, List.forall_mem_cons, ← hzero x, ← hzero y]
    constructor
    · intro h
      exact ⟨by omega, by omega, ih.mp (by omega)⟩
    · rintro ⟨hx, hy, hrest⟩
      have := ih.mpr hrest
      omega

/-- The sum of a message: type and code, checksum, and the rest. -/
theorem icmpSum_eq (hlen : 28 ≤ b.ipLen) :
    icmpSum b = fold 0xffff (256 * (b 34).toNat + (b 35).toNat + (be16 b 36 +
      wordSum (bytesAt b 38 (b.ipLen - 24)))) := by
  have hlt : b.ipLen < 2 ^ 16 := be16_lt b 16
  have hsize : u16 (b.ipLen - 20) = b.ipLen - 24 + 2 + 2 := by
    rw [u16]
    omega
  rw [icmpSum, chksum_eq _ (Nat.zero_le _), Nat.zero_add, hsize, bytesAt_add_two, wordSum,
    bytesAt_add_two, wordSum]
  rfl

theorem htons_digits {high low : ℕ} (hlow : low < 256) :
    htons (256 * high + low) = 256 * low + high := by
  rw [htons, swap]
  omega

/-- The new checksum is congruent to the right one, and 0 in one case only. -/
theorem echoSum_spec (hc : c < 2 ^ 16) :
    (htons (echoSum (htons c)) = c + 0x0800 ∨ htons (echoSum (htons c)) + 0xffff = c + 0x0800) ∧
      (htons (echoSum (htons c)) = 0 ↔ c = 0xf7ff) := by
  have hbound : htons (0xffff - 0x0800) = 0xfff7 := by decide
  have height : htons 0x0800 = 8 := by decide
  obtain ⟨high, low, rfl, hhigh, hlow⟩ : ∃ high low, c = 256 * high + low ∧ high < 256 ∧ low < 256 :=
    ⟨c / 256, c % 256, by omega, by omega, by omega⟩
  rw [htons_digits hlow, echoSum, hbound, height]
  by_cases hbig : 0xfff7 ≤ 256 * low + high
  · -- the carry out of the word
    have hsum : (256 * low + high + 8 + 1) % 2 ^ 16 = 256 * 0 + (high - 247) := by omega
    rw [if_pos hbig, hsum, htons_digits (by omega)]
    omega
  rw [if_neg hbig]
  by_cases hcarry : high + 8 < 256
  · have hsum : (256 * low + high + 8) % 2 ^ 16 = 256 * low + (high + 8) := by omega
    rw [hsum, htons_digits hcarry]
    omega
  · -- the carry from the high byte goes to the low one
    have hsum : (256 * low + high + 8) % 2 ^ 16 = 256 * (low + 1) + (high - 248) := by omega
    rw [hsum, htons_digits (by omega)]
    omega

theorem echoReply_buf (b : Buf) : b.echoReply.buf =
    (((b.put 34 0).putWord 36 (echoSum (word b 36))).put32 30 b.srcipaddr).put32 26
      b.destipaddr := rfl

/-- **When the answer to a ping has the right checksum**: if the ping has, and something else in
it is not zero. -/
theorem echo_right_iff (b : Buf) (htype : b 34 = 8) (hlen : 28 ≤ b.ipLen) :
    icmpSum b.echoReply.buf = 0xffff ↔
      icmpSum b = 0xffff ∧ ¬ (b 35 = 0 ∧ ∀ k, 38 ≤ k → k < llhLen + b.ipLen → b k = 0) := by
  have hsame : ∀ k, k < 26 ∨ k = 35 ∨ 38 ≤ k → b.echoReply.buf k = b k := fun k hk =>
    echoReply_of_ne hk
  have hipLen : b.echoReply.buf.ipLen = b.ipLen :=
    be16_congr (hsame 16 (by omega)) (hsame 17 (by omega))
  have hreplyType : b.echoReply.buf 34 = 0 := by
    rw [echoReply_buf, Buf.put32_of_ne (by omega), Buf.put32_of_ne (by omega), Buf.putWord_of_ne (by omega),
      Buf.put_self]
  have hrest : bytesAt b.echoReply.buf 38 (b.ipLen - 24) = bytesAt b 38 (b.ipLen - 24) :=
    bytesAt_congr fun k _ => hsame (38 + k) (by omega)
  have hsum : be16 b.echoReply.buf 36 = htons (echoSum (htons (be16 b 36))) := by
    have hlt : echoSum (word b 36) < 2 ^ 16 := by
      rw [echoSum]
      split
      · exact Nat.mod_lt _ (by decide)
      · exact Nat.mod_lt _ (by decide)
    rw [echoReply_buf, be16_put32 (by omega), be16_put32 (by omega), be16_putWord_self hlt, word_eq]
  have hzero : (∀ k, 38 ≤ k → k < llhLen + b.ipLen → b k = 0) ↔
      wordSum (bytesAt b 38 (b.ipLen - 24)) = 0 := by
    rw [wordSum_eq_zero]
    simp only [bytesAt, List.mem_map, List.mem_range, forall_exists_index, and_imp,
      forall_apply_eq_imp_iff₂]
    constructor
    · intro h k hk
      exact h (38 + k) (by omega) (by rw [llhLen]; omega)
    · intro h k hk hlt
      rw [llhLen] at hlt
      have hk' := h (k - 38) (by omega)
      rwa [Nat.add_sub_cancel' hk] at hk'
  have hcode : b 35 = 0 ↔ (b 35).toNat = 0 := (UInt8.toNat_inj (b := 0)).symm
  obtain ⟨hcongr, hnone⟩ := echoSum_spec (be16_lt b 36)
  have hc := be16_lt b 36
  rw [icmpSum_eq (by rw [hipLen]; exact hlen), icmpSum_eq hlen, hipLen, hrest, hreplyType,
    hsame 35 (by omega), hsum, htype, fold_eq_iff (by decide), fold_eq_iff (by decide), hzero, hcode]
  have htype0 : (0 : UInt8).toNat = 0 := rfl
  have htype8 : (8 : UInt8).toNat = 8 := rfl
  rw [htype0, htype8]
  generalize htons (echoSum (htons (be16 b 36))) = c' at hcongr hnone ⊢
  generalize be16 b 36 = c at hcongr hnone hc ⊢
  generalize wordSum (bytesAt b 38 (b.ipLen - 24)) = rest
  generalize (b 35).toNat = code
  omega

end Ping

/-- A ping with nothing but a checksum. -/
def barePing : Buf := fun i =>
  if i = 34 then 8 else if i = 36 then 0xf7 else if i = 37 then 0xff else if i = 17 then 28 else 0

/-- Its answer is all zeros. -/
theorem echo_right_iff_barePing : ¬ icmpSum barePing.echoReply.buf = 0xffff := by
  have hright := echo_right_iff barePing rfl (by decide)
  refine fun h => (hright.mp h).2 ⟨rfl, fun k hk _ => ?_⟩
  rw [barePing, if_neg (by omega), if_neg (by omega), if_neg (by omega), if_neg (by omega)]

/-! ### ARP -/

section Resolution

variable {fs : Fs} {h : Host} {b : Buf} {hostaddr len : ℕ}

theorem arpinReply_of_le (h : 42 ≤ len) : arpinReply hostaddr b len = arpinReply hostaddr b 42 := by
  simp only [arpinReply, h, Nat.le_refl]

theorem arpinLearns_of_le (h : 42 ≤ len) : arpinLearns hostaddr b len = arpinLearns hostaddr b 42 := by
  simp only [arpinLearns, h, Nat.le_refl]

/-- A frame that was sent is long enough. -/
theorem length_of_sent {appdata : Buf} {x : Rx} (hx : netSendHttpd b appdata 42 <+: x.frame) :
    42 ≤ u16 x.frame.length := by
  have hle := hx.length_le
  rw [netSendHttpd, List.length_map, List.length_range] at hle
  have := x.le
  rw [u16]
  omega

/-! The host over its stack. -/

/-- **The host over its stack.**  A step of the host is a run of the stack. -/
theorem hostStep_stack (fs : Fs) (h : Host) (input : HostInput) :
    ∃ inputs, (h.step fs input).1.stack = Run.exec (stackStep fs) h.stack inputs := by
  by_cases hhung : h.stack.hung = true
  · rw [show h.step fs input = (h, none, []) from if_pos hhung]
    exact ⟨[], rfl⟩
  have hstep : ∀ u : Stack, u.hung = h.stack.hung → ∀ i b,
      (stackStep fs u (.periodic i b)).1 = (uipPeriodic fs u i b).stack := by
    intro u hu i b
    rw [stackStep, if_neg (by rw [hu]; exact hhung)]
  cases input with
  | handler b b' =>
    refine ⟨[.periodic 0 b, .periodic 1 b'], ?_⟩
    rw [step_handler (by simpa using hhung), Run.exec_cons, Run.exec_cons, Run.exec_nil,
      hstep h.stack rfl, hstep _ (uipPeriodic_turn fs h.stack 0 b).hung]
  | frame x =>
    rw [show h.step fs (.frame x) = h.receive fs x from if_neg hhung, Host.receive]
    by_cases hip : x.buf.ethType = 0x0800
    · rw [if_pos hip]
      refine ⟨[.frame x], ?_⟩
      rw [Run.exec_cons, Run.exec_nil, stackStep, if_neg hhung]
    rw [if_neg hip]
    refine ⟨[], ?_⟩
    split
    · rfl
    · rfl

theorem hostStep_hostaddr (fs : Fs) (h : Host) (input : HostInput) :
    (h.step fs input).1.stack.hostaddr = h.stack.hostaddr := by
  obtain ⟨inputs, hstack⟩ := hostStep_stack fs h input
  rw [hstack]
  exact Run.exec_invariant (fun u : Stack => u.hostaddr = h.stack.hostaddr) (P := fun _ _ => True)
    (fun u input hu _ => (stackStep_hostaddr fs u input).trans hu) rfl
    (Run.allSteps_of_forall fun _ _ => trivial)

/-- The address and the cache of a host that has run for any time. -/
theorem host_run (fs : Fs) (hostaddr : ℕ) (ram : Httpd.Ram) (inputs : List HostInput) :
    let h := Run.exec (Host.step fs) (Host.start hostaddr ram) inputs
    h.stack.hostaddr = hostaddr ∧ ∃ book, Coherent book h.arp := by
  refine Run.exec_invariant (fun h : Host => h.stack.hostaddr = hostaddr ∧ ∃ book, Coherent book h.arp)
    (P := fun _ _ => True) (fun h input hinv _ => ?_) ⟨rfl, fun _ => none, fun i h => ?_,
      fun i j h _ => ?_⟩ (Run.allSteps_of_forall fun _ _ => trivial)
  · obtain ⟨hhost, book, hcoherent⟩ := hinv
    refine ⟨(hostStep_hostaddr fs h input).trans hhost, book.note (h.step fs input).2.1, ?_⟩
    exact (coherent_step (w := ⟨h, book⟩) hcoherent input).1
  · exact absurd h not_halved_zero
  · exact absurd h not_halved_zero

end Resolution

/-- **A request and its reply are enough.**  Station `A` has run for any time and sends a request
for the address of `B`; `B` answers the frame, and behind the answer the cache of `A`, however
full it was, has the station of `B`. -/
theorem resolves (fs fs' : Fs) (ipA ipB : ℕ) (macA macB : EthAddr) (ram : Httpd.Ram)
    (inputs : List HostInput) (B : Host) (b appdata appdata' : Buf) (x y : Rx)
    (hipA : ipA < 2 ^ 32) (hipB : ipB < 2 ^ 32) (hhalved : Halved ipB) (hmacA : macA.length = 6)
    (hmacB : macB.length = 6) (hB : B.stack.hostaddr = ipB ∧ B.stack.hung = false)
    (hA : (Run.exec (Host.step fs) (Host.start ipA ram) inputs).stack.hung = false)
    (hx : netSendHttpd (b.arpRequest macA ipA ipB) appdata 42 <+: x.frame)
    (hy : netSendHttpd (x.buf.arpReply macB ipB) appdata' 42 <+: y.frame) :
    (B.step fs' (.frame x)).2.2 = [.arpReply macA ipA] ∧
      ((Run.exec (Host.step fs) (Host.start ipA ram) inputs).step fs (.frame y)).1.arp.lookup ipB =
        some macB := by
  obtain ⟨hhost, book, hcoherent⟩ := host_run fs ipA ram inputs
  generalize Run.exec (Host.step fs) (Host.start ipA ram) inputs = A at hA hhost hcoherent ⊢
  -- the request at `B`
  have hrequest : (Frame.arpRequest ipB).Read macA ipA ⟨0, 0, 0, 0, b, b⟩ x.buf :=
    read_arpRequest hipA hipB hmacA hx
  obtain ⟨htype, hreply⟩ := hrequest
  have hsender : x.buf.sipaddr = ipA := by
    rw [arpinReply] at hreply
    split at hreply
    · have hframe := List.cons.inj hreply
      exact (Frame.arpReply.inj hframe.1).2
    · cases hreply
  have hstepB : B.step fs' (.frame x) = B.receive fs' x := if_neg (by simp [hB.2])
  -- the reply at `A`
  have hanswer : (Frame.arpReply x.buf.shwaddr x.buf.sipaddr).Read macB ipB ⟨0, 0, 0, 0, b, b⟩ y.buf :=
    read_arpReply hipB hmacB hy
  obtain ⟨-, htype', hlearns⟩ := hanswer
  have hstepA : A.step fs (.frame y) = A.receive fs y := if_neg (by simp [hA])
  constructor
  · rw [hstepB, Host.receive, if_neg (by rw [htype]; decide), if_pos htype]
    show arpinReply B.stack.hostaddr x.buf (u16 x.frame.length) = _
    rw [hB.1, arpinReply_of_le (length_of_sent hx), hreply]
  · rw [hstepA, Host.receive, if_neg (by rw [htype']; decide), if_pos htype']
    show (A.arp.learn (arpinLearns A.stack.hostaddr y.buf (u16 y.frame.length))).lookup ipB = _
    rw [hhost, arpinLearns_of_le (length_of_sent hy), ← hsender, hlearns]
    exact hcoherent.lookup_update hhalved macB

/-- A frame of 42 bytes that is received as it was sent. -/
def received (b : Buf) : Rx where
  frame := netSendHttpd b b.behind 42
  le := by
    rw [netSendHttpd, List.length_map, List.length_range]
    decide

def stationA : EthAddr := [2, 0, 0, 0, 0, 1]

def stationB : EthAddr := [2, 0, 0, 0, 0, 2]

/-- The request of `A` for the address of `B`, as it is received. -/
def request : Rx := received (Buf.arpRequest (fun _ => 0) stationA 0xc0a80101 0xc0a80102)

theorem resolves_request :
    ((Host.start 0xc0a80102 fun _ => 0).step default (.frame request)).2.2 =
        [.arpReply stationA 0xc0a80101] ∧
      ((Host.start 0xc0a80101 fun _ => 0).step default
        (.frame (received (request.buf.arpReply stationB 0xc0a80102)))).1.arp.lookup 0xc0a80102 =
          some stationB :=
  resolves default default 0xc0a80101 0xc0a80102 stationA stationB (fun _ => 0) []
    (.start 0xc0a80102 fun _ => 0) (fun _ => 0) _ _ request _ (by decide) (by decide) (by decide) rfl
    rfl ⟨rfl, rfl⟩ rfl (List.prefix_refl _) (List.prefix_refl _)

end Uip
