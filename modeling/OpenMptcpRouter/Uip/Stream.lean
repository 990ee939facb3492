/-
What a connection hands to the application is what its peer sent, in order.

`Peer` is the other end of a connection: the sequence number of its SYN and the bytes it
sends behind it.  Its segments may be cut as it likes and cut anew when they are sent
again, and the network may lose, repeat and reorder them; frames with a wrong checksum may
say anything.  `Session` is the stack with a record of the new data each connection has
handed over since it began to receive.

* `Peer.Sends` — the segment is one of the peer's;
* `Holds`, `holds_step` — the record is the beginning of the stream, and `rcv_nxt` stands
  behind it;
* `received_inOrder` — so it is after every run of the stack, for every connection.

The peers send no options with data and leave the urgent pointer alone: the stack takes
what lies 20 bytes behind the start of the TCP header for data, and moves past urgent data
without handing them over.
-/
import Mathlib.Data.Nat.ModEq
import OpenMptcpRouter.Uip.Calls

namespace Uip

open Httpd (Fs Event)

/-! ### Peers -/

/-- The other end of a connection. -/
structure Peer where
  /-- the sequence number of its SYN -/
  iss : ℕ
  /-- the bytes it sends, the first of them numbered `iss + 1` -/
  stream : List UInt8
  length_lt : stream.length + 1 < 2 ^ 32

/-- The length of the data of a segment. -/
def Buf.segLen (b : Buf) : ℕ := u16 (b.ipLen - b.hdrLen - 20)

/-- A segment of the peer: its SYN, a piece of its stream, a segment without data, or a
reset. -/
structure Peer.Sends (p : Peer) (b : Buf) : Prop where
  urgp : b.urgp = 0
  syn : b.flags &&& tcpCtl = tcpSyn → b.seqno = p.iss % 2 ^ 32
  data : b.flags &&& tcpCtl ≠ tcpSyn → b.has tcpRst = false → 0 < b.segLen →
    ∃ k, k + b.segLen ≤ p.stream.length ∧ b.seqno = (p.iss + 1 + k) % 2 ^ 32 ∧
      bytesAt b (40 + llhLen) b.segLen = (p.stream.drop k).take b.segLen

theorem Peer.sends_iff {p : Peer} {b : Buf} :
    p.Sends b ↔ b.urgp = 0 ∧ (b.flags &&& tcpCtl = tcpSyn → b.seqno = p.iss % 2 ^ 32) ∧
      (b.flags &&& tcpCtl ≠ tcpSyn → b.has tcpRst = false → 0 < b.segLen →
        ∃ k < p.stream.length + 1, k + b.segLen ≤ p.stream.length ∧
          b.seqno = (p.iss + 1 + k) % 2 ^ 32 ∧
          bytesAt b (40 + llhLen) b.segLen = (p.stream.drop k).take b.segLen) := by
  constructor
  · rintro ⟨hurg, hsyn, hdata⟩
    refine ⟨hurg, hsyn, fun hns hrst hlen => ?_⟩
    obtain ⟨k, hk, hrest⟩ := hdata hns hrst hlen
    exact ⟨k, by omega, hk, hrest⟩
  · rintro ⟨hurg, hsyn, hdata⟩
    refine ⟨hurg, hsyn, fun hns hrst hlen => ?_⟩
    obtain ⟨k, -, hrest⟩ := hdata hns hrst hlen
    exact ⟨k, hrest⟩

instance (p : Peer) (b : Buf) : Decidable (p.Sends b) := decidable_of_iff _ Peer.sends_iff.symm

/-- Frames for the server whose checksums are right come from the peers, told apart by
address and port. -/
def Honest (peer : ℕ → ℕ → Peer) (hostaddr : ℕ) : Input → Prop
  | .frame x => Proper hostaddr x.buf → x.buf.destport = 80 →
      (peer x.buf.srcipaddr x.buf.srcport).Sends x.buf
  | .periodic _ _ => True

instance (peer : ℕ → ℕ → Peer) (hostaddr : ℕ) : DecidablePred (Honest peer hostaddr)
  | .frame x => inferInstanceAs (Decidable (Proper hostaddr x.buf → x.buf.destport = 80 →
      (peer x.buf.srcipaddr x.buf.srcport).Sends x.buf))
  | .periodic _ _ => isTrue trivial

/-! ### Sessions -/

/-- The stack, and the new data each connection has handed over since it began to receive. -/
structure Session where
  stack : Stack
  received : Fin 2 → List UInt8

/-- The new data a call hands over for connection `i`. -/
def newDataOf (i : Fin 2) : Option Event → List UInt8
  | some e => if e.conn = i then newData (some e) else []
  | none => []

/-- One step of the stack, with its call. -/
def Session.step (fs : Fs) (t : Session) (input : Input) : Session × Option Event :=
  let u := (stackStep fs t.stack input).1
  let call := input.call t.stack
  ({ stack := u
     received := fun i =>
      if ¬ (t.stack.conns i).Live ∧ (u.conns i).Live then []
      else t.received i ++ newDataOf i call }, call)

def Session.start (hostaddr : ℕ) (ram : Httpd.Ram) : Session where
  stack := Uip.start hostaddr ram
  received := fun _ => []

/-- Connection `i` has handed over the beginning of its peer's stream, and as long as it can
receive it stands behind that. -/
def Holds (peer : ℕ → ℕ → Peer) (t : Session) (i : Fin 2) : Prop :=
  let c := t.stack.conns i
  let p := peer c.ripaddr c.rport
  t.received i <+: p.stream ∧
    (c.Live → c.lport = 80 ∧ c.rcvNxt ≡ p.iss + 1 + (t.received i).length [MOD 2 ^ 32])

section Steps

variable {fs : Fs} {peer : ℕ → ℕ → Peer} {t : Session} {u v : Stack} {i : Fin 2} {b : Buf}
  {call : Option Event} {skipped : ℕ}

theorem demultiplex_spec (h : demultiplex u b = some i) :
    (u.conns i).tcpState ≠ .closed ∧ b.destport = (u.conns i).lport ∧
      b.srcport = (u.conns i).rport ∧ b.srcipaddr = (u.conns i).ripaddr := by
  have hsome := List.find?_some h
  simpa using hsome

theorem freeConn_spec (h : freeConn u.conns = some i) : ¬ (u.conns i).Live := by
  have hstate : (u.conns i).tcpState = .closed ∨ (u.conns i).tcpState = .timeWait := by
    rw [freeConn] at h
    split at h
    · cases h
      exact Or.inl ‹_›
    split at h
    · cases h
      exact Or.inl ‹_›
    split at h
    · split at h
      · cases h
        exact Or.inr (And.left ‹_›)
      · cases h
        exact Or.inr ‹_›
    split at h
    · cases h
      exact Or.inr ‹_›
    · exact absurd h (by simp)
  rcases hstate with hs | hs <;> simp [Conn.Live, hs]

/-- The piece of the stream a segment carries, when the segment is the one that comes next. -/
theorem piece_of_sends {p : Peer} {c : Conn} {n : ℕ} (hsends : p.Sends b)
    (hrst : b.has tcpRst = false) (hn : n ≤ p.stream.length)
    (hnxt : c.rcvNxt ≡ p.iss + 1 + n [MOD 2 ^ 32]) (hseq : b.seqno = c.rcvNxt) :
    n + b.segLen ≤ p.stream.length ∧
      bytesAt b (40 + llhLen) b.segLen = (p.stream.drop n).take b.segLen := by
  have hlt := p.length_lt
  rw [Nat.ModEq] at hnxt
  by_cases hsyn : b.flags &&& tcpCtl = tcpSyn
  · -- the SYN is not the next segment of any stream this long
    have hiss := hsends.syn hsyn
    rw [hseq] at hiss
    omega
  rcases Nat.eq_zero_or_pos b.segLen with hlen | hlen
  · rw [hlen]
    exact ⟨hn, rfl⟩
  · obtain ⟨k, hk, hseqk, hdata⟩ := hsends.data hsyn hrst hlen
    rw [hseq] at hseqk
    have hkn : k = n := by omega
    rw [← hkn]
    exact ⟨hk, hdata⟩

theorem newDataOf_self {e : Event} (h : e.conn = i) : newDataOf i (some e) = newData (some e) :=
  if_pos h

theorem newDataOf_none (i : Fin 2) : newDataOf i none = [] := rfl

/-- A run of `uip_process` for connection `i` that hands over what comes next in the stream. -/
theorem holds_turn {r : Result} (ht : ∀ j, Holds peer t j)
    (hturn : Turn fs t.stack i r call skipped)
    (hskipped : (r.stack.conns i).Live → skipped = 0)
    (hdata : t.received i ++ newData call <+:
      (peer (t.stack.conns i).ripaddr (t.stack.conns i).rport).stream) (j : Fin 2) :
    Holds peer
      { stack := r.stack
        received := fun j =>
          if ¬ (t.stack.conns j).Live ∧ (r.stack.conns j).Live then []
          else t.received j ++ newDataOf j call } j := by
  by_cases hj : j = i
  · subst hj
    have hnew : newDataOf j call = newData call := by
      cases call with
      | none => rfl
      | some e => exact newDataOf_self (hturn.conn e rfl)
    have hsame : ¬ (¬ (t.stack.conns j).Live ∧ (r.stack.conns j).Live) := fun h =>
      h.1 (hturn.moves.live h.2).1
    rw [Holds]
    dsimp only
    rw [if_neg hsame, hnew, hturn.moves.ripaddr, hturn.moves.rport, hturn.moves.lport]
    refine ⟨hdata, fun hlive => ?_⟩
    obtain ⟨hlive', hnxt⟩ := hturn.moves.live hlive
    obtain ⟨hport, hat⟩ := (ht j).2 hlive'
    refine ⟨hport, ?_⟩
    rw [hskipped hlive, Nat.zero_add] at hnxt
    rw [List.length_append, ← Nat.add_assoc]
    exact Nat.ModEq.trans hnxt (hat.add_right _)
  · -- the other connection
    have hnew : newDataOf j call = [] := by
      cases call with
      | none => rfl
      | some e =>
        refine if_neg fun h => hj ?_
        exact Fin.ext (h.symm.trans (hturn.conn e rfl))
    have hconn := hturn.others j hj
    have hsame : ¬ (¬ (t.stack.conns j).Live ∧ (r.stack.conns j).Live) := fun h =>
      h.1 (hconn ▸ h.2)
    rw [Holds]
    dsimp only
    rw [if_neg hsame, hnew, List.append_nil, hconn]
    exact ht j

/-- **One step of the stack** keeps every connection in its peer's stream. -/
theorem holds_step (ht : ∀ j, Holds peer t j) (input : Input)
    (honest : Honest peer t.stack.hostaddr input) (j : Fin 2) :
    Holds peer (t.step fs input).1 j := by
  rw [Session.step]
  dsimp only
  have hcase := stepCase fs t.stack input
  generalize (stackStep fs t.stack input).1 = v, input.call t.stack = call at hcase ⊢
  cases hcase with
  | idle =>
    have hsame : ¬ (¬ (t.stack.conns j).Live ∧ (t.stack.conns j).Live) := fun h => h.1 h.2
    rw [Holds]
    dsimp only
    rw [if_neg hsame, newDataOf_none, List.append_nil]
    exact ht j
  | timer i b =>
    refine holds_turn ht (uipPeriodic_turn fs t.stack i b) (fun _ => rfl) ?_ j
    rw [newData_periodicCall, List.append_nil]
    exact (ht i).1
  | segment x i hproper hdemux =>
    obtain ⟨skipped, hskipped, hturn⟩ := found_turn fs t.stack i x.buf x.buf.ipLen x.malloc
    obtain ⟨-, hdest, hsrcport, hsrcip⟩ := demultiplex_spec hdemux
    -- a connection that can receive is one to the peer the segment comes from
    have hsends : (t.stack.conns i).Live →
        (peer (t.stack.conns i).ripaddr (t.stack.conns i).rport).Sends x.buf := by
      intro hlive
      have hsent := honest hproper (hdest.trans ((ht i).2 hlive).1)
      rwa [hsrcip, hsrcport] at hsent
    refine holds_turn ht hturn (fun hlive => ?_) ?_ j
    · exact hskipped (hsends (hturn.moves.live hlive).1).urgp
    · rcases newData_foundCall t.stack i x.buf x.buf.ipLen x.malloc with hnil | ⟨hlive, hrst, hnext⟩
      · rw [hnil, List.append_nil]
        exact (ht i).1
      · have hpeer := hsends hlive
        obtain ⟨hseq, hdata⟩ := hnext hpeer.urgp
        have hprefix := (ht i).1
        obtain ⟨hfits, hpiece⟩ :=
          piece_of_sends hpeer hrst hprefix.length_le ((ht i).2 hlive).2 hseq
        rw [hdata]
        rw [Buf.segLen] at hpiece
        rw [hpiece]
        have htake := List.prefix_iff_eq_take.mp hprefix
        generalize (t.received i).length = n at htake
        rw [htake, ← List.take_add]
        exact List.take_prefix _ _
  | listen x hproper hdemux hsyn hport =>
    rcases foundListen_stack t.stack x.buf with ⟨-, hstack⟩ |
      ⟨i, c, hfree, hconns, -, -, hstate, hip, hrport, hlport, hnxt, -⟩
    · rw [hstack]
      have hsame : ¬ (¬ (t.stack.conns j).Live ∧ (t.stack.conns j).Live) := fun h => h.1 h.2
      rw [Holds]
      dsimp only
      rw [if_neg hsame, newDataOf_none, List.append_nil]
      exact ht j
    · by_cases hj : j = i
      · -- the connection the SYN opens
        subst hj
        have hopened : ¬ (t.stack.conns j).Live ∧
            ((foundListen t.stack x.buf).stack.conns j).Live := by
          rw [hconns, Function.update_self]
          exact ⟨freeConn_spec hfree, Or.inl hstate⟩
        rw [Holds]
        dsimp only
        rw [if_pos hopened, hconns, Function.update_self, hip, hrport]
        refine ⟨List.nil_prefix, fun _ => ⟨hlport.trans hport, ?_⟩⟩
        have hseq := (honest hproper hport).syn hsyn
        rw [hnxt, hseq, add32, List.length_nil, Nat.ModEq]
        omega
      · have hsame : ¬ (¬ (t.stack.conns j).Live ∧
            ((foundListen t.stack x.buf).stack.conns j).Live) := by
          rw [hconns, Function.update_of_ne hj]
          exact fun h => h.1 h.2
        rw [Holds]
        dsimp only
        rw [if_neg hsame, newDataOf_none, List.append_nil, hconns, Function.update_of_ne hj]
        exact ht j

/-- The address of the server stays the same. -/
theorem stackStep_hostaddr (fs : Fs) (u : Stack) (input : Input) :
    (stackStep fs u input).1.hostaddr = u.hostaddr := by
  have hcase := stepCase fs u input
  generalize (stackStep fs u input).1 = v, input.call u = call at hcase ⊢
  cases hcase with
  | idle => rfl
  | segment x i =>
    obtain ⟨skipped, -, hturn⟩ := found_turn fs u i x.buf x.buf.ipLen x.malloc
    exact hturn.hostaddr
  | listen x =>
    rcases foundListen_stack u x.buf with ⟨-, hstack⟩ | ⟨i, c, -, -, -, hhost, -⟩
    · rw [hstack]
    · exact hhost
  | timer i b => exact (uipPeriodic_turn fs u i b).hostaddr

end Steps

/-- **Delivery to the application.**  Whatever segments are lost, repeated or reordered,
each connection hands over the bytes its peer has sent, in order and without a gap, from the
first one on; what it acknowledges next is the byte behind them. -/
theorem received_inOrder (fs : Fs) (peer : ℕ → ℕ → Peer) (hostaddr : ℕ) (ram : Httpd.Ram)
    (inputs : List Input) (honest : ∀ input ∈ inputs, Honest peer hostaddr input) (i : Fin 2) :
    Holds peer (Run.exec (Session.step fs) (Session.start hostaddr ram) inputs) i := by
  have hinv : (Run.exec (Session.step fs) (Session.start hostaddr ram) inputs).stack.hostaddr =
      hostaddr ∧
      ∀ j, Holds peer (Run.exec (Session.step fs) (Session.start hostaddr ram) inputs) j := by
    refine Run.exec_invariant (fun t => t.stack.hostaddr = hostaddr ∧ ∀ j, Holds peer t j)
      (fun t input ht hinput => ?_) ?_ (Run.allSteps_of_forall honest)
    · refine ⟨(stackStep_hostaddr fs t.stack input).trans ht.1, fun j => ?_⟩
      refine holds_step ht.2 input ?_ j
      rw [ht.1]
      exact hinput
    · refine ⟨rfl, fun j => ⟨List.nil_prefix, fun h => ?_⟩⟩
      simp [Session.start, Uip.start, Conn.Live] at h
  exact hinv.2 i

/-! ### A run with a segment out of order -/

/-- A peer that has numbered its SYN 100 and sends a request line in two pieces. -/
def sixBytes : Peer where
  iss := 100
  stream := CString.ascii "GET / "
  length_lt := by decide

/-- The handshake, the second piece before the first, and the first once more. -/
def reordered : List Input :=
  lyingRun.take 2 ++ [
    .frame { frame := clientFrame 43 0xf779 104 1 (tcpAck ||| tcpPsh) 0xdb03 (CString.ascii " / ") },
    .frame { frame := clientFrame 43 0xf779 101 1 (tcpAck ||| tcpPsh) 0x7ff0 (CString.ascii "GET") },
    .frame { frame := clientFrame 43 0xf779 101 1 (tcpAck ||| tcpPsh) 0x7ff0 (CString.ascii "GET") }]

theorem honest_reordered :
    ∀ input ∈ reordered, Honest (fun _ _ => sixBytes) 0xc0a80101 input := by
  decide +kernel

theorem received_inOrder_reordered :
    Holds (fun _ _ => sixBytes)
        (Run.exec (Session.step default) (Session.start 0xc0a80101 fun _ => 0) reordered) 0 ∧
      (Run.exec (Session.step default) (Session.start 0xc0a80101 fun _ => 0)
        reordered).received 0 = CString.ascii "GET" :=
  ⟨received_inOrder default (fun _ _ => sixBytes) 0xc0a80101 (fun _ => 0) reordered
    honest_reordered 0, by decide +kernel⟩

end Uip
