/-
The replies of the GPIO controller (`r2ec.c`).

`stm32Read` receives a reply, up to ten more times when the bus times out, and checks it:
a reply without data is refused by its fourth byte, a damaged one by its checksum.

`calcCrc8` takes the polynomial off before the shift, so the register always ends in a
zero bit and two bytes that differ by the polynomial have one checksum.

* `stm32Check_isOk_iff` — the replies of full length that are accepted;
* `damaged_iff` — **one damaged byte**: unless the damage is the polynomial itself, the
  reply is accepted through the wrong-checksum quirk only.
-/
import OpenMptcpRouter.Lib.Crc

namespace R2ec

/-- `uint8_t`. -/
abbrev Byte := BitVec 8

/-- The error codes. -/
inductive Errno
  | etimedout | enxio | enodata | ebade
  /-- any other error of the bus -/
  | other (code : ℕ)
  deriving DecidableEq, Repr

/-- `sizeof(struct i2c_response)`: version, length, command, seven bytes of data, checksum. -/
def responseSize : ℕ := 11

/-- The polynomial of `calc_crc8`. -/
def polynomial : Byte := 0xD5

/-- A round of the inner loop of `calc_crc8`. -/
def crcRound (crc : Byte) : Byte :=
  if crc &&& 0x80 ≠ 0 then (crc ^^^ polynomial) <<< 1 else crc <<< 1

/-- A round of the outer loop of `calc_crc8`. -/
def crcByte (crc data : Byte) : Byte :=
  (List.range 8).foldl (fun crc _ => crcRound crc) (crc ^^^ data)

/-- `calc_crc8`. -/
def calcCrc8 (data : List Byte) : Byte := data.foldl crcByte 0xFF

/-- The byte at `data[i]`. -/
def byteAt (data : List Byte) (i : ℕ) : Byte := data.getD i 0

/-- `stm32_read` behind the reception: the data left in the buffer, or the error. -/
def stm32Check (data : List Byte) (len : ℕ) : Except Errno (List Byte) :=
  if len = 1 then .ok data
  -- ignore checksum on partial i2c response
  else if len = responseSize - 1 then .ok data
  else if byteAt data 3 = 0xFF then .error .enodata
  else if calcCrc8 (data.take (len - 1)) ≠ byteAt data (len - 1) then
    -- apply quirk - discard first byte, skip checksum checking
    if byteAt data (len - 1) = 0 then .ok (data.tail ++ [byteAt data (len - 1)])
    else .error .ebade
  else .ok data

/-- The loop at `retry`: attempt `cnt` of the reception, with `left` attempts to come. -/
def receive (recv : ℕ → Except Errno (List Byte)) : (left cnt : ℕ) → Except Errno (List Byte)
  | 0, cnt => recv cnt
  | left + 1, cnt =>
    match recv cnt with
    | .error .etimedout => receive recv left (cnt + 1)
    | r => r

/-- `stm32_read`; `recv` is what `i2c_master_recv` returns attempt after attempt. -/
def stm32Read (client : Bool) (recv : ℕ → Except Errno (List Byte)) (len : ℕ) :
    Except Errno (List Byte) :=
  if !client then .error .enxio
  else
    match receive recv 10 0 with
    | .error e => .error e
    | .ok data => stm32Check data len

/-- The reply is delivered after at most ten timeouts. -/
def Delivers (recv : ℕ → Except Errno (List Byte)) (data : List Byte) : Prop :=
  ∃ n ≤ 10, (∀ k < n, recv k = .error .etimedout) ∧ recv n = .ok data

/-- A reply of full length that is accepted because its checksum matches. -/
structure Matches (data : List Byte) : Prop where
  length_eq : data.length = responseSize
  available : byteAt data 3 ≠ 0xFF
  checksum : calcCrc8 (data.take (responseSize - 1)) = byteAt data (responseSize - 1)

/-- The reply with byte `i` damaged. -/
def damage (data : List Byte) (i : ℕ) (b : Byte) : List Byte := data.set i b

section Checksum

theorem and_top_ne_zero_iff (c : Byte) : c &&& 0x80 ≠ 0 ↔ c.msb = true := by
  rw [BitVec.msb_eq_getLsbD_last]
  have htop : (0x80 : Byte) = BitVec.twoPow 8 7 := rfl
  rw [htop, BitVec.and_twoPow]
  split
  · rename_i h
    simp only [h, iff_true]
    decide
  · rename_i h
    simpa using h

theorem crcRound_eq (c : Byte) : crcRound c = Crc.shift polynomial c := by
  rw [crcRound, Crc.shift]
  simp only [and_top_ne_zero_iff]

/-- The checksum is the one of a shift register. -/
theorem calcCrc8_eq (data : List Byte) : calcCrc8 data = Crc.crc polynomial 8 0xFF data := by
  have hbyte : crcByte = Crc.feed polynomial 8 := by
    funext crc x
    simp only [crcByte, Crc.feed, List.range_succ, List.range_zero, List.nil_append,
      List.foldl_append, List.foldl_cons, List.foldl_nil, crcRound_eq, Crc.shifts]
  rw [calcCrc8, Crc.crc, hbyte]

/-- **The checksums of two texts that differ in one byte.** -/
theorem calcCrc8_eq_iff (front back : List Byte) (x y : Byte) :
    calcCrc8 (front ++ x :: back) = calcCrc8 (front ++ y :: back) ↔ x = y ∨ x ^^^ y = polynomial := by
  rw [calcCrc8_eq, calcCrc8_eq]
  exact Crc.crc_eq_crc_iff rfl rfl 0xFF x y front back

end Checksum

section Reading

variable {recv : ℕ → Except Errno (List Byte)} {data : List Byte}

theorem receive_of_timeouts {n : ℕ} (left cnt : ℕ) (hn : n ≤ left)
    (htimeout : ∀ k < n, recv (cnt + k) = .error .etimedout) (hdata : recv (cnt + n) = .ok data) :
    receive recv left cnt = .ok data := by
  induction n generalizing left cnt with
  | zero =>
    cases left with
    | zero => exact hdata
    | succ left =>
      rw [receive]
      rw [Nat.add_zero] at hdata
      rw [hdata]
  | succ n ih =>
    obtain ⟨left, rfl⟩ : ∃ l, left = l + 1 := ⟨left - 1, by omega⟩
    rw [receive, show recv cnt = _ from htimeout 0 (by omega)]
    refine ih left (cnt + 1) (by omega) (fun k hk => ?_) ?_
    · rw [Nat.add_right_comm]
      exact htimeout (k + 1) (by omega)
    · rw [Nat.add_right_comm]
      exact hdata

/-- A reply that is delivered is checked. -/
theorem stm32Read_eq (h : Delivers recv data) (len : ℕ) :
    stm32Read true recv len = stm32Check data len := by
  obtain ⟨n, hn, htimeout, hdata⟩ := h
  have hreceive : receive recv 10 0 = .ok data := by
    refine receive_of_timeouts 10 0 hn (fun k hk => ?_) ?_
    · rw [Nat.zero_add]
      exact htimeout k hk
    · rw [Nat.zero_add]
      exact hdata
  rw [stm32Read, hreceive]
  rfl

/-- The replies of full length that are accepted: by the checksum or by the quirk. -/
theorem stm32Check_isOk_iff :
    (stm32Check data responseSize).isOk = true ↔
      byteAt data 3 ≠ 0xFF ∧
        (calcCrc8 (data.take (responseSize - 1)) = byteAt data (responseSize - 1) ∨
          byteAt data (responseSize - 1) = 0) := by
  rw [stm32Check, if_neg (by decide), if_neg (by decide)]
  by_cases havail : byteAt data 3 = 0xFF
  · rw [if_pos havail]
    exact ⟨fun h => absurd h Bool.false_ne_true, fun h => absurd havail h.1⟩
  · rw [if_neg havail]
    by_cases hcrc : calcCrc8 (data.take (responseSize - 1)) = byteAt data (responseSize - 1)
    · rw [if_neg (fun h => h hcrc)]
      exact ⟨fun _ => ⟨havail, .inl hcrc⟩, fun _ => rfl⟩
    · rw [if_pos hcrc]
      by_cases hzero : byteAt data (responseSize - 1) = 0
      · rw [if_pos hzero]
        exact ⟨fun _ => ⟨havail, .inr hzero⟩, fun _ => rfl⟩
      · rw [if_neg hzero]
        exact ⟨fun h => absurd h Bool.false_ne_true, fun h => absurd h.2 (not_or.mpr ⟨hcrc, hzero⟩)⟩

end Reading

section Damage

variable {data : List Byte} {i : ℕ} {b : Byte}

theorem byteAt_damage_self (hi : i < data.length) : byteAt (damage data i b) i = b := by
  rw [byteAt, damage, List.getD_eq_getElem?_getD, List.getElem?_set_self hi, Option.getD_some]

theorem byteAt_damage_of_ne {j : ℕ} (h : i ≠ j) : byteAt (damage data i b) j = byteAt data j := by
  rw [byteAt, damage, List.getD_eq_getElem?_getD, List.getElem?_set_ne h, byteAt,
    List.getD_eq_getElem?_getD]

/-- A text and the same text with byte `i` damaged, up to byte `n`. -/
theorem take_damage {n : ℕ} (hi : i < n) (hn : n ≤ data.length) :
    ∃ front back, data.take n = front ++ byteAt data i :: back ∧
      (damage data i b).take n = front ++ b :: back := by
  have hlt : i < (data.take n).length := by
    rw [List.length_take]
    omega
  have hget : (data.take n)[i] = byteAt data i := by
    rw [List.getElem_take, byteAt, List.getD_eq_getElem?_getD,
      List.getElem?_eq_getElem (by omega : i < data.length), Option.getD_some]
  refine ⟨(data.take n).take i, (data.take n).drop (i + 1), ?_, ?_⟩
  · rw [← hget, List.getElem_cons_drop, List.take_append_drop]
  · rw [damage, List.take_set, List.set_eq_take_append_cons_drop, if_pos hlt]

/-- Damage in front of the checksum byte is noticed unless it is the polynomial. -/
theorem checksum_damage_iff {n : ℕ} (hi : i < n) (hn : n ≤ data.length)
    (hne : byteAt data i ≠ b) :
    calcCrc8 ((damage data i b).take n) = calcCrc8 (data.take n) ↔
      byteAt data i ^^^ b = polynomial := by
  obtain ⟨front, back, hdata, hdamaged⟩ := take_damage (b := b) hi hn
  rw [hdata, hdamaged, eq_comm, calcCrc8_eq_iff, or_iff_right hne]

end Damage

/-- The damage at byte `i` is one the checksum can tell: any at the checksum itself, and any
but the polynomial in front of it. -/
def Telling (data : List Byte) (i : ℕ) (b : Byte) : Prop :=
  i < responseSize - 1 → byteAt data i ^^^ b ≠ polynomial

/-- **One damaged byte.**  A reply of full length that was accepted by its checksum is
accepted with one byte damaged exactly through the quirk: when it ends in a zero byte. -/
theorem damaged_iff {data : List Byte} {i : ℕ} {b : Byte} {recv : ℕ → Except Errno (List Byte)}
    (h : Matches data) (hi : i < responseSize) (hne : byteAt data i ≠ b)
    (htell : Telling data i b) (hrecv : Delivers recv (damage data i b)) :
    (stm32Read true recv responseSize).isOk = true ↔
      byteAt (damage data i b) 3 ≠ 0xFF ∧ byteAt (damage data i b) (responseSize - 1) = 0 := by
  rw [stm32Read_eq hrecv, stm32Check_isOk_iff]
  refine and_congr_right fun _ => or_iff_right ?_
  have hlen := h.length_eq
  by_cases hlast : i = responseSize - 1
  · -- the checksum byte itself: the checksum of the bytes in front of it has not changed
    subst hlast
    have hfront : (damage data (responseSize - 1) b).take (responseSize - 1) =
        data.take (responseSize - 1) := by
      rw [damage, List.take_set_of_le (Nat.le_refl _)]
    rw [hfront, byteAt_damage_self (by omega), h.checksum]
    exact hne
  · have hlt : i < responseSize - 1 := by omega
    rw [byteAt_damage_of_ne hlast, ← h.checksum, checksum_damage_iff hlt (by omega) hne]
    exact htell hlt

/-- The supported protocol is version 2. -/
def protoReply : List Byte := [0x01, 0x09, 0xFC, 0x03, 0x02, 0, 0, 0, 0, 0, 0x06]

theorem matches_protoReply : Matches protoReply := ⟨rfl, by decide, by decide +kernel⟩

/-- With version 3 in the place of version 2 the reply is refused. -/
theorem damaged_iff_protoReply :
    (stm32Read true (fun _ => .ok (damage protoReply 4 0x03)) responseSize).isOk = true ↔
      byteAt (damage protoReply 4 0x03) 3 ≠ 0xFF ∧
        byteAt (damage protoReply 4 0x03) (responseSize - 1) = 0 :=
  damaged_iff matches_protoReply (by decide) (by decide) (fun _ => by decide)
    ⟨0, Nat.zero_le _, nofun, rfl⟩

/-- Damage by the polynomial, and a checksum that turns into zero, are accepted. -/
theorem damaged_accepted :
    Matches protoReply ∧
      (byteAt protoReply 4 ≠ 0xD7 ∧
        (stm32Read true (fun _ => .ok (damage protoReply 4 0xD7)) responseSize).isOk = true) ∧
      (byteAt protoReply 10 ≠ 0 ∧
        (stm32Read true (fun _ => .ok (damage protoReply 10 0)) responseSize).isOk = true) :=
  ⟨matches_protoReply, ⟨by decide, by decide +kernel⟩, ⟨by decide, by decide +kernel⟩⟩

end R2ec
