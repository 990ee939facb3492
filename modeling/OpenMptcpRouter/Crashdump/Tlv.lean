/-
The crashdump data the kernel leaves behind: type-length-value records.

The buffer holds UNAME records, of which the last one counts, and then a record of type
INVALID.  `qcom_wdt_extract_crashdump_data` goes through them with the length each record
says it has; `qcom_wdt_write_crashdump_data` then writes `uname_length` bytes of `uname`.

* `extract_records` — records that fit are stored one after the other;
* `meets_iff` — exactly when the parser accepts the well-formed buffers and no others,
  stays inside its arrays and leaves an `uname_length` that was stored: three kinds of
  buffers have to be left out;
* `dump_eq_plain_write` — what then arrives on the flash memory.
-/
import OpenMptcpRouter.Crashdump.Writers

namespace Crashdump

open Blocks Regions

/-- `MAX_UNAME_SIZE`. -/
def maxUnameSize : ℕ := 1024

/-- `CONFIG_CPU_CONTEXT_DUMP_SIZE`. -/
def cpuContextDumpSize : ℕ := 0x70000

/-- `QCOM_WDT_LOG_DUMP_TYPE_INVALID`. -/
def typeInvalid : UInt8 := 0

/-- `QCOM_WDT_LOG_DUMP_TYPE_UNAME`. -/
def typeUname : UInt8 := 1

/-- `-EINVAL`. -/
def einval : ℤ := -22

/-- `struct qcom_wdt_scm_tlv_msg`: the `len` bytes at `msg_buffer` and a position in them. -/
structure TlvMsg where
  msgBuffer : List UInt8
  curMsgBufferPos : ℕ

/-- `struct qcom_wdt_crashdump_data`: of the array `uname` the bytes stored so far, which are
those at its front. -/
structure CrashdumpData where
  uname : List UInt8
  unameLength : ℕ

/-- `memcpy` to `uname`. -/
def CrashdumpData.store (d : CrashdumpData) (value : List UInt8) : CrashdumpData :=
  { d with uname := value ++ d.uname.drop value.length }

/-- `qcom_wdt_scm_extract_tlv_info`: type and length, or `-EINVAL`. -/
def extractTlvInfo (m : TlvMsg) : Except Fault (Option (UInt8 × ℕ)) :=
  let x := m.curMsgBufferPos
  let y := m.msgBuffer.length
  if x + 3 ≥ y then .ok none
  else do
    let header ← bytesAt m.msgBuffer x 3
    return some (header.getD 0 0, (header.getD 1 0).toNat + 256 * (header.getD 2 0).toNat)

/-- `qcom_wdt_scm_extract_tlv_data` with `uname` as the destination, or `-EINVAL`. -/
def extractTlvData (m : TlvMsg) (d : CrashdumpData) (size : ℕ) :
    Except Fault (Option (TlvMsg × CrashdumpData)) :=
  let x := m.curMsgBufferPos
  let y := m.msgBuffer.length
  if x + 3 + size ≥ y then .ok none
  else do
    let value ← bytesAt m.msgBuffer (x + 3) size
    if value.length ≤ maxUnameSize then
      return some ({ m with curMsgBufferPos := x + (size + 3) }, d.store value)
    else .error .outOfBounds

theorem extractTlvData_pos {m m' : TlvMsg} {d d' : CrashdumpData} {size : ℕ}
    (h : extractTlvData m d size = .ok (some (m', d'))) :
    m'.msgBuffer.length - m'.curMsgBufferPos < m.msgBuffer.length - m.curMsgBufferPos := by
  unfold extractTlvData at h
  dsimp only at h
  by_cases hend : m.curMsgBufferPos + 3 + size ≥ m.msgBuffer.length
  · rw [if_pos hend] at h
    cases h
  · rw [if_neg hend, bytesAt_eq (by omega), ok_bind] at h
    split at h
    · cases h
      dsimp only
      omega
    · cases h

/-- `qcom_wdt_extract_crashdump_data`: the value returned, and the data. -/
def qcomWdtExtractCrashdumpData (m : TlvMsg) (d : CrashdumpData) :
    Except Fault (ℤ × CrashdumpData) :=
  match extractTlvInfo m with
  | .error e => .error e
  | .ok none => .ok (einval, d)
  | .ok (some (curType, curSize)) =>
    if curType = typeUname then
      match _h : extractTlvData m { d with unameLength := curSize } curSize with
      | .error e => .error e
      | .ok none => .ok (einval, { d with unameLength := curSize })
      | .ok (some (m', d')) => qcomWdtExtractCrashdumpData m' d'
    else if curType = typeInvalid then .ok (0, d)
    else .ok (einval, d)
termination_by m.msgBuffer.length - m.curMsgBufferPos
decreasing_by exact extractTlvData_pos _h

/-- The functions for one flash memory, with what they keep and how they fail. -/
structure FlashFns (σ ε : Type) where
  writeInit : ℕ → Except ε σ
  write : σ → List UInt8 → Except ε σ
  writeDeinit : σ → Except ε σ

/-- Why the data is not written: `uname` is read where nothing was stored, or the flash
memory fails. -/
inductive WriteFault (ε : Type)
  | unstored
  | flash (e : ε)

/-- The bytes of `uname` that are passed on. -/
def unameBytes {ε : Type} (d : CrashdumpData) : Except (WriteFault ε) (List UInt8) :=
  if d.unameLength ≤ d.uname.length then .ok (d.uname.take d.unameLength) else .error .unstored

/-- `qcom_wdt_write_crashdump_data`. -/
def qcomWdtWriteCrashdumpData {σ ε : Type} (fns : FlashFns σ ε) (d : CrashdumpData)
    (cpuContext : List UInt8) : Except (WriteFault ε) σ := do
  let c ← (fns.writeInit (cpuContextDumpSize + d.unameLength)).mapError .flash
  let c ← (fns.write c cpuContext).mapError .flash
  let uname ← unameBytes d
  let c ← (fns.write c uname).mapError .flash
  (fns.writeDeinit c).mapError .flash

/-! ### Well-formed buffers -/

/-- The UNAME record of a value: type, two-byte length, value. -/
def unameRecord (v : List UInt8) : List UInt8 :=
  typeUname :: UInt8.ofNat v.length :: UInt8.ofNat (v.length / 256) :: v

/-- The buffer begins with UNAME records of the values `vs`, none too long, and goes on with
`tail`. -/
def Splits (b : List UInt8) (vs : List (List UInt8)) (tail : List UInt8) : Prop :=
  b = vs.flatMap unameRecord ++ tail ∧ ∀ v ∈ vs, v.length ≤ maxUnameSize

/-- UNAME records of `vs`, and then a record of type INVALID. -/
def WellFormed (b : List UInt8) (vs : List (List UInt8)) : Prop :=
  ∃ lo hi rest, Splits b vs (typeInvalid :: lo :: hi :: rest)

/-- The data is that of the last of the records `vs`, or what it was if there is none. -/
def IsLast (vs : List (List UInt8)) (d d' : CrashdumpData) : Prop :=
  (vs = [] → d' = d) ∧
    ∀ v, vs.getLast? = some v → d'.unameLength = v.length ∧ d'.uname.take v.length = v

/-- The parser returns without an access outside its arrays; it returns 0 for the well-formed
buffers only, with the data of the last record; and what is written afterwards was stored. -/
def Meets (b : List UInt8) (d : CrashdumpData) : Prop :=
  ∃ ret d', qcomWdtExtractCrashdumpData ⟨b, 0⟩ d = .ok (ret, d') ∧
    (ret = 0 ↔ ∃ vs, WellFormed b vs) ∧
    (ret = 0 → ∀ vs, WellFormed b vs → IsLast vs d d') ∧
    (ret = 0 → ∀ (σ ε : Type) (fns : FlashFns σ ε) (cpuContext : List UInt8),
      qcomWdtWriteCrashdumpData fns d' cpuContext ≠ .error .unstored)

/-- No UNAME record that is reached and fits with a byte to spare is longer than `uname`;
the record of type INVALID is not the very end of the buffer; and if it is the first, then
the bytes that `uname_length` counts have been stored before. -/
def Sound (b : List UInt8) (d : CrashdumpData) : Prop :=
  (∀ vs lo hi rest, Splits b vs (typeUname :: lo :: hi :: rest) →
    maxUnameSize < lo.toNat + 256 * hi.toNat → rest.length ≤ lo.toNat + 256 * hi.toNat) ∧
  (∀ vs lo hi, ¬ Splits b vs [typeInvalid, lo, hi]) ∧
  ∀ lo hi rest, b = typeInvalid :: lo :: hi :: rest → rest ≠ [] → d.unameLength ≤ d.uname.length

/-! ### One record -/

section Step

variable {b rest : List UInt8} {pos : ℕ} {t lo hi : UInt8} {d : CrashdumpData}

theorem extract_short (h : (b.drop pos).length ≤ 3) :
    qcomWdtExtractCrashdumpData ⟨b, pos⟩ d = .ok (einval, d) := by
  have hinfo : extractTlvInfo ⟨b, pos⟩ = .ok none := if_pos (by
    rw [List.length_drop] at h
    dsimp only
    omega)
  rw [qcomWdtExtractCrashdumpData, hinfo]

theorem length_of_header (h : b.drop pos = t :: lo :: hi :: rest) :
    b.length = pos + 3 + rest.length := by
  have hlen := congrArg List.length h
  simp only [List.length_drop, List.length_cons] at hlen
  omega

theorem extractTlvInfo_eq (h : b.drop pos = t :: lo :: hi :: rest) (hne : rest ≠ []) :
    extractTlvInfo ⟨b, pos⟩ = .ok (some (t, lo.toNat + 256 * hi.toNat)) := by
  have hlen := length_of_header h
  have hpos := List.length_pos_iff.mpr hne
  unfold extractTlvInfo
  dsimp only
  rw [if_neg (by omega), bytesAt_eq (by omega), ok_bind, h]
  rfl

theorem drop_header (h : b.drop pos = t :: lo :: hi :: rest) : b.drop (pos + 3) = rest := by
  rw [← List.drop_drop, h]
  rfl

theorem extract_invalid (h : b.drop pos = typeInvalid :: lo :: hi :: rest) (hne : rest ≠ []) :
    qcomWdtExtractCrashdumpData ⟨b, pos⟩ d = .ok (0, d) := by
  rw [qcomWdtExtractCrashdumpData, extractTlvInfo_eq h hne]
  rfl

theorem extract_other (h : b.drop pos = t :: lo :: hi :: rest) (hne : rest ≠ [])
    (hinvalid : t ≠ typeInvalid) (huname : t ≠ typeUname) :
    qcomWdtExtractCrashdumpData ⟨b, pos⟩ d = .ok (einval, d) := by
  rw [qcomWdtExtractCrashdumpData, extractTlvInfo_eq h hne]
  dsimp only
  rw [if_neg huname, if_neg hinvalid]

/-- A UNAME record: what `extract_tlv_data` makes of it decides. -/
theorem extract_of_info {m : TlvMsg} {size : ℕ}
    (h : extractTlvInfo m = .ok (some (typeUname, size))) :
    qcomWdtExtractCrashdumpData m d =
      match extractTlvData m { d with unameLength := size } size with
      | .error e => .error e
      | .ok none => .ok (einval, { d with unameLength := size })
      | .ok (some (m', d')) => qcomWdtExtractCrashdumpData m' d' := by
  rw [qcomWdtExtractCrashdumpData, h]
  dsimp only
  rw [if_pos rfl]
  split
  · next heq => rw [heq]
  · next heq => rw [heq]
  · next heq => rw [heq]

/-- A UNAME record is stored and passed, unless it does not fit in the buffer with a byte to
spare, or not in `uname`. -/
theorem extract_uname (h : b.drop pos = typeUname :: lo :: hi :: rest) (hne : rest ≠ []) :
    qcomWdtExtractCrashdumpData ⟨b, pos⟩ d =
      if rest.length ≤ lo.toNat + 256 * hi.toNat then
        .ok (einval, { d with unameLength := lo.toNat + 256 * hi.toNat })
      else if lo.toNat + 256 * hi.toNat ≤ maxUnameSize then
        qcomWdtExtractCrashdumpData ⟨b, pos + (lo.toNat + 256 * hi.toNat + 3)⟩
          ({ d with unameLength := lo.toNat + 256 * hi.toNat }.store
            (rest.take (lo.toNat + 256 * hi.toNat)))
      else .error .outOfBounds := by
  have hlen := length_of_header h
  rw [extract_of_info (extractTlvInfo_eq h hne)]
  by_cases hend : rest.length ≤ lo.toNat + 256 * hi.toNat
  · -- the value does not end before the last byte of the buffer
    have hdata : ∀ d', extractTlvData ⟨b, pos⟩ d' (lo.toNat + 256 * hi.toNat) = .ok none :=
      fun d' => if_pos (by dsimp only; omega)
    rw [if_pos hend, hdata]
  · -- it is in the buffer, but the copy only succeeds inside `uname`
    have hdata : ∀ d', extractTlvData ⟨b, pos⟩ d' (lo.toNat + 256 * hi.toNat) =
        if lo.toNat + 256 * hi.toNat ≤ maxUnameSize then
          .ok (some (⟨b, pos + (lo.toNat + 256 * hi.toNat + 3)⟩,
            d'.store (rest.take (lo.toNat + 256 * hi.toNat))))
        else .error .outOfBounds := by
      intro d'
      have htake : (rest.take (lo.toNat + 256 * hi.toNat)).length = lo.toNat + 256 * hi.toNat := by
        rw [List.length_take]
        omega
      unfold extractTlvData
      dsimp only
      rw [if_neg (by omega), bytesAt_eq (by omega), ok_bind, drop_header h, htake]
      rfl
    rw [if_neg hend, hdata]
    by_cases hsize : lo.toNat + 256 * hi.toNat ≤ maxUnameSize
    · rw [if_pos hsize, if_pos hsize]
    · rw [if_neg hsize, if_neg hsize]

end Step

/-! ### Taking a buffer apart -/

/-- No complete UNAME record stands in front. -/
def Stuck (tail : List UInt8) : Prop :=
  ∀ v rest, v.length ≤ maxUnameSize → tail ≠ unameRecord v ++ rest

section Grammar

variable {b tail tail' rest v x : List UInt8} {vs vs' : List (List UInt8)} {t lo hi : UInt8}

theorem record_size (hv : v.length ≤ maxUnameSize) :
    (UInt8.ofNat v.length).toNat + 256 * (UInt8.ofNat (v.length / 256)).toNat = v.length := by
  simp only [maxUnameSize, UInt8.toNat_ofNat'] at *
  omega

theorem unameRecord_append (v x : List UInt8) : unameRecord v ++ x =
    typeUname :: UInt8.ofNat v.length :: UInt8.ofNat (v.length / 256) :: (v ++ x) := rfl

/-- A record is read off its header. -/
theorem eq_record (h : lo.toNat + 256 * hi.toNat ≤ rest.length) :
    typeUname :: lo :: hi :: rest =
      unameRecord (rest.take (lo.toNat + 256 * hi.toNat)) ++
        rest.drop (lo.toNat + 256 * hi.toNat) := by
  have hlo := lo.toNat_lt
  have hhi := hi.toNat_lt
  have hlen : (rest.take (lo.toNat + 256 * hi.toNat)).length = lo.toNat + 256 * hi.toNat := by
    rw [List.length_take]
    omega
  have h0 : UInt8.ofNat (lo.toNat + 256 * hi.toNat) = lo := by
    rw [← UInt8.toNat_inj, UInt8.toNat_ofNat']
    omega
  have h1 : UInt8.ofNat ((lo.toNat + 256 * hi.toNat) / 256) = hi := by
    rw [← UInt8.toNat_inj, UInt8.toNat_ofNat']
    omega
  rw [unameRecord_append, hlen, h0, h1, List.take_append_drop]

theorem record_inj (hv : v.length ≤ maxUnameSize)
    (h : typeUname :: lo :: hi :: rest = unameRecord v ++ x) :
    lo.toNat + 256 * hi.toNat = v.length ∧ rest = v ++ x := by
  rw [unameRecord_append, List.cons.injEq, List.cons.injEq, List.cons.injEq] at h
  obtain ⟨-, rfl, rfl, hrest⟩ := h
  exact ⟨record_size hv, hrest⟩

theorem unameRecord_append_inj {v' x' : List UInt8} (hv : v.length ≤ maxUnameSize)
    (hv' : v'.length ≤ maxUnameSize) (h : unameRecord v ++ x = unameRecord v' ++ x') :
    v = v' ∧ x = x' := by
  obtain ⟨hsize, hrest⟩ := record_inj hv' h
  rw [record_size hv] at hsize
  exact List.append_inj hrest hsize

theorem stuck_of_ne (h : t ≠ typeUname) : Stuck (t :: rest) := by
  intro v x _ heq
  exact h (List.cons.inj heq).1

theorem stuck_of_long (h : maxUnameSize < lo.toNat + 256 * hi.toNat) :
    Stuck (typeUname :: lo :: hi :: rest) := by
  intro v x hv heq
  have hsize := (record_inj hv heq).1
  omega

/-- Every buffer comes apart in records and a rest with none in front. -/
theorem exists_splits (b : List UInt8) : ∃ vs tail, Splits b vs tail ∧ Stuck tail := by
  induction hn : b.length using Nat.strongRecOn generalizing b with
  | ind n ih =>
    by_cases hstuck : Stuck b
    · exact ⟨[], b, ⟨rfl, fun v hv => absurd hv List.not_mem_nil⟩, hstuck⟩
    · simp only [Stuck, not_forall, not_not] at hstuck
      obtain ⟨v, rest, hv, rfl⟩ := hstuck
      have hlt : rest.length < n := by
        rw [← hn, unameRecord_append]
        simp only [List.length_cons, List.length_append]
        omega
      obtain ⟨vs, tail, ⟨hsplit, hvs⟩, htail⟩ := ih _ hlt rest rfl
      refine ⟨v :: vs, tail, ⟨?_, List.forall_mem_cons.mpr ⟨hv, hvs⟩⟩, htail⟩
      rw [hsplit, List.flatMap_cons, List.append_assoc]

theorem splits_unique (h : Splits b vs tail) (htail : Stuck tail) (h' : Splits b vs' tail')
    (htail' : Stuck tail') : vs = vs' ∧ tail = tail' := by
  induction vs generalizing b vs' with
  | nil =>
    obtain ⟨rfl, -⟩ := h
    cases vs' with
    | nil => exact ⟨rfl, h'.1⟩
    | cons v' vs' =>
      refine absurd ?_ (htail v' (vs'.flatMap unameRecord ++ tail') (h'.2 v' List.mem_cons_self))
      rw [← List.append_assoc]
      exact h'.1
  | cons v vs ih =>
    obtain ⟨heq, hvs⟩ := h
    rw [List.flatMap_cons, List.append_assoc] at heq
    rw [List.forall_mem_cons] at hvs
    cases vs' with
    | nil =>
      exact absurd (h'.1.symm.trans heq) (htail' v _ hvs.1)
    | cons v' vs' =>
      obtain ⟨heq', hvs'⟩ := h'
      rw [List.flatMap_cons, List.append_assoc] at heq'
      rw [List.forall_mem_cons] at hvs'
      obtain ⟨rfl, hrest⟩ := unameRecord_append_inj hvs.1 hvs'.1 (heq.symm.trans heq')
      obtain ⟨rfl, rfl⟩ := ih ⟨rfl, hvs.2⟩ ⟨hrest, hvs'.2⟩
      exact ⟨rfl, rfl⟩

end Grammar

/-! ### Runs over the records -/

/-- A UNAME record as it is taken into the data. -/
def CrashdumpData.record (d : CrashdumpData) (v : List UInt8) : CrashdumpData :=
  { d with unameLength := v.length }.store v

section Run

variable {b tail : List UInt8} {vs : List (List UInt8)} {lo hi : UInt8} {rest : List UInt8}

/-- **Records that fit.**  With something behind them, they are taken in one by one. -/
theorem extract_records (hvs : ∀ v ∈ vs, v.length ≤ maxUnameSize) (htail : tail ≠ [])
    (pre : List UInt8) (d : CrashdumpData) (hb : b = pre ++ (vs.flatMap unameRecord ++ tail)) :
    qcomWdtExtractCrashdumpData ⟨b, pre.length⟩ d =
      qcomWdtExtractCrashdumpData ⟨b, (pre ++ vs.flatMap unameRecord).length⟩
        (vs.foldl CrashdumpData.record d) := by
  -- the position moves behind the records already read, which become part of `pre`
  induction vs generalizing pre d with
  | nil => rw [List.flatMap_nil, List.append_nil, List.foldl_nil]
  | cons v vs ih =>
    rw [List.forall_mem_cons] at hvs
    rw [List.flatMap_cons, List.append_assoc] at hb
    have hdrop : b.drop pre.length = unameRecord v ++ (vs.flatMap unameRecord ++ tail) := by
      rw [hb, List.drop_left]
    rw [unameRecord_append] at hdrop
    have hlt : ¬ (v ++ (vs.flatMap unameRecord ++ tail)).length ≤ v.length := by
      have hpos := List.length_pos_iff.mpr htail
      simp only [List.length_append]
      omega
    have hne : v ++ (vs.flatMap unameRecord ++ tail) ≠ [] := fun hnil => htail (by simp_all)
    rw [extract_uname hdrop hne, record_size hvs.1, if_neg hlt, if_pos hvs.1, List.take_left]
    have hnext := ih hvs.2 (pre ++ unameRecord v) (d.record v) (by rw [hb, List.append_assoc])
    have hpos : (pre ++ unameRecord v).length = pre.length + (v.length + 3) := by
      rw [List.length_append]
      rfl
    rw [hpos] at hnext
    rw [List.flatMap_cons, List.foldl_cons, ← List.append_assoc]
    exact hnext

/-- A buffer that ends behind its records is refused, like one with less than a header. -/
theorem extract_of_short (h : Splits b vs tail) (hlen : tail.length ≤ 3) (d : CrashdumpData) :
    ∃ d', qcomWdtExtractCrashdumpData ⟨b, 0⟩ d = .ok (einval, d') := by
  obtain ⟨hb, hvs⟩ := h
  by_cases htail : tail = []
  · rw [htail, List.append_nil] at hb
    rcases List.eq_nil_or_concat' vs with rfl | ⟨ws, v, rfl⟩
    · rw [hb]
      exact ⟨d, extract_short (by simp)⟩
    -- the last record stands at the very end
    rw [List.forall_mem_append] at hvs
    have hv := hvs.2 v (List.mem_singleton_self v)
    rw [List.flatMap_append, List.flatMap_singleton] at hb
    have hrun := extract_records hvs.1 (List.cons_ne_nil _ _) [] d hb
    rw [List.nil_append, List.length_nil] at hrun
    have hdrop : b.drop (ws.flatMap unameRecord).length = unameRecord v := by
      rw [hb, List.drop_left]
    rw [hrun]
    by_cases hnil : v = []
    · exact ⟨_, extract_short (by rw [hdrop, hnil]; rfl)⟩
    · rw [extract_uname hdrop hnil, record_size hv, if_pos le_rfl]
      exact ⟨_, rfl⟩
  · have hrun := extract_records hvs htail [] d hb
    rw [List.nil_append, List.length_nil] at hrun
    rw [hrun]
    exact ⟨_, extract_short (by rw [hb, List.drop_left]; exact hlen)⟩

/-- Behind the records of a buffer. -/
theorem extract_of_splits (h : Splits b vs tail) (htail : tail ≠ []) (d : CrashdumpData) :
    ∃ pos, b.drop pos = tail ∧ qcomWdtExtractCrashdumpData ⟨b, 0⟩ d =
      qcomWdtExtractCrashdumpData ⟨b, pos⟩ (vs.foldl CrashdumpData.record d) := by
  obtain ⟨hb, hvs⟩ := h
  refine ⟨(vs.flatMap unameRecord).length, by rw [hb, List.drop_left], ?_⟩
  exact extract_records hvs htail [] d hb

/-- After the records, the data is that of the last one. -/
theorem isLast_foldl (vs : List (List UInt8)) (d : CrashdumpData) :
    IsLast vs d (vs.foldl CrashdumpData.record d) := by
  rcases List.eq_nil_or_concat' vs with rfl | ⟨ws, v, rfl⟩
  · exact ⟨fun _ => rfl, fun v hv => by cases hv⟩
  · rw [List.foldl_append]
    refine ⟨fun h => absurd h (by simp), fun u hu => ?_⟩
    rw [List.getLast?_concat, Option.some.injEq] at hu
    subst hu
    exact ⟨rfl, List.take_left⟩

/-- What is written of `uname` was stored, exactly if `uname_length` counts no more. -/
theorem write_ne_unstored_iff (d : CrashdumpData) :
    (∀ (σ ε : Type) (fns : FlashFns σ ε) (cpuContext : List UInt8),
      qcomWdtWriteCrashdumpData fns d cpuContext ≠ .error .unstored) ↔
      d.unameLength ≤ d.uname.length := by
  constructor
  · intro h
    by_contra hlen
    -- a device that takes everything lets the write of the name be reached
    refine h Unit Unit ⟨fun _ => .ok (), fun _ _ => .ok (), fun _ => .ok ()⟩ [] ?_
    have hbytes : @unameBytes Unit d = .error .unstored := if_neg hlen
    simp only [qcomWdtWriteCrashdumpData, hbytes]
    rfl
  · intro hlen σ ε fns cpuContext
    have hbytes : @unameBytes ε d = .ok (d.uname.take d.unameLength) := if_pos hlen
    unfold qcomWdtWriteCrashdumpData
    rw [hbytes]
    rcases fns.writeInit (cpuContextDumpSize + d.unameLength) with e | c
    · exact fun h => by cases h
    simp only [Except.mapError, bind, Except.bind]
    rcases fns.write c cpuContext with e | c₁
    · exact fun h => by cases h
    dsimp only
    rcases fns.write c₁ (d.uname.take d.unameLength) with e | c₂
    · exact fun h => by cases h
    dsimp only
    rcases fns.writeDeinit c₂ with e | c₃
    · exact fun h => by cases h
    · exact fun h => by cases h

/-- With a record, `uname_length` counts what the record stored. -/
theorem unameLength_le_of_ne_nil {vs : List (List UInt8)} (h : vs ≠ []) (d : CrashdumpData) :
    (vs.foldl CrashdumpData.record d).unameLength ≤
      (vs.foldl CrashdumpData.record d).uname.length := by
  rcases List.eq_nil_or_concat' vs with rfl | ⟨ws, v, rfl⟩
  · exact absurd rfl h
  · rw [List.foldl_append]
    change v.length ≤ (v ++ _).length
    rw [List.length_append]
    exact Nat.le_add_right ..

end Run

/-! ### The parser -/

section Meets

variable {b tail : List UInt8} {vs : List (List UInt8)} {d : CrashdumpData}

/-- Which buffers are well formed, and which conditions matter, is a question of what stands
behind the records. -/
theorem wellFormed_iff (h : Splits b vs tail) (htail : Stuck tail) (vs' : List (List UInt8)) :
    WellFormed b vs' ↔ vs' = vs ∧ ∃ lo hi rest, tail = typeInvalid :: lo :: hi :: rest := by
  constructor
  · rintro ⟨lo, hi, rest, h'⟩
    obtain ⟨rfl, rfl⟩ := splits_unique h htail h' (stuck_of_ne (by decide))
    exact ⟨rfl, lo, hi, rest, rfl⟩
  · rintro ⟨rfl, lo, hi, rest, rfl⟩
    exact ⟨lo, hi, rest, h⟩

theorem sound_iff (h : Splits b vs tail) (htail : Stuck tail) :
    Sound b d ↔
      (∀ lo hi rest, tail = typeUname :: lo :: hi :: rest → rest.length ≤ lo.toNat + 256 * hi.toNat) ∧
      (∀ lo hi, tail ≠ [typeInvalid, lo, hi]) ∧
      (vs = [] → ∀ lo hi rest, tail = typeInvalid :: lo :: hi :: rest → rest ≠ [] →
        d.unameLength ≤ d.uname.length) := by
  constructor
  · rintro ⟨hlong, hend, hfirst⟩
    refine ⟨fun lo hi rest heq => ?_, fun lo hi heq => hend vs lo hi (heq ▸ h), ?_⟩
    · by_contra hfits
      -- a record in front of the tail can only be too long
      have hsize : maxUnameSize < lo.toNat + 256 * hi.toNat := by
        by_contra hle
        refine htail (rest.take (lo.toNat + 256 * hi.toNat))
          (rest.drop (lo.toNat + 256 * hi.toNat)) ?_ ?_
        · rw [List.length_take]
          omega
        · rw [heq]
          exact eq_record (by omega)
      exact hfits (hlong vs lo hi rest (heq ▸ h) hsize)
    · rintro rfl lo hi rest heq hne
      exact hfirst lo hi rest (h.1.trans heq) hne
  · rintro ⟨hlong, hend, hfirst⟩
    refine ⟨fun vs' lo hi rest h' hsize => ?_, fun vs' lo hi h' => ?_, fun lo hi rest hb hne => ?_⟩
    · exact hlong lo hi rest (splits_unique h htail h' (stuck_of_long hsize)).2
    · exact hend lo hi (splits_unique h htail h' (stuck_of_ne (by decide))).2
    · have h' : Splits b [] (typeInvalid :: lo :: hi :: rest) :=
        ⟨hb, fun v hv => absurd hv List.not_mem_nil⟩
      obtain ⟨hvs, htail'⟩ := splits_unique h htail h' (stuck_of_ne (by decide))
      exact hfirst hvs lo hi rest htail' hne

theorem einval_ne_zero : einval ≠ 0 := by decide

/-- The parser on a buffer whose tail it refuses. -/
theorem meets_of_refused (h : Splits b vs tail) (htail : Stuck tail)
    (hrefused : ∃ d', qcomWdtExtractCrashdumpData ⟨b, 0⟩ d = .ok (einval, d')) :
    Meets b d ↔ ∀ lo hi rest, tail ≠ typeInvalid :: lo :: hi :: rest := by
  obtain ⟨d', heq⟩ := hrefused
  constructor
  · rintro ⟨ret, d'', heq', hret, -⟩ lo hi rest hinvalid
    rw [heq] at heq'
    cases heq'
    refine absurd (hret.mpr ⟨vs, ?_⟩) einval_ne_zero
    exact (wellFormed_iff h htail vs).mpr ⟨rfl, lo, hi, rest, hinvalid⟩
  · intro hno
    refine ⟨einval, d', heq, ⟨fun hret => absurd hret einval_ne_zero, ?_⟩,
      fun hret => absurd hret einval_ne_zero, fun hret => absurd hret einval_ne_zero⟩
    rintro ⟨vs', hwf⟩
    obtain ⟨-, lo, hi, rest, hinvalid⟩ := (wellFormed_iff h htail vs').mp hwf
    exact absurd hinvalid (hno lo hi rest)

/-- The parser on a buffer it accepts. -/
theorem meets_of_accepted {lo hi : UInt8} {rest : List UInt8}
    (h : Splits b vs (typeInvalid :: lo :: hi :: rest)) (hne : rest ≠ []) :
    Meets b d ↔ (vs = [] → d.unameLength ≤ d.uname.length) := by
  have hstuck : Stuck (typeInvalid :: lo :: hi :: rest) := stuck_of_ne (by decide)
  obtain ⟨pos, hdrop, heq⟩ := extract_of_splits h (List.cons_ne_nil _ _) d
  rw [extract_invalid hdrop hne] at heq
  have hwf : WellFormed b vs := ⟨lo, hi, rest, h⟩
  constructor
  · rintro ⟨ret, d', heq', -, -, hwrite⟩ rfl
    rw [heq] at heq'
    cases heq'
    exact (write_ne_unstored_iff d).mp (hwrite rfl)
  · intro hfirst
    refine ⟨0, _, heq, iff_of_true rfl ⟨vs, hwf⟩, fun _ vs' hwf' => ?_, fun _ => ?_⟩
    · rw [((wellFormed_iff h hstuck vs').mp hwf').1]
      exact isLast_foldl vs d
    · refine (write_ne_unstored_iff _).mpr ?_
      by_cases hvs : vs = []
      · subst hvs
        exact hfirst rfl
      · exact unameLength_le_of_ne_nil hvs d

/-- **The parser.**  It does what it is for on the buffers that are sound, and on no others. -/
theorem meets_iff (b : List UInt8) (d : CrashdumpData) : Meets b d ↔ Sound b d := by
  obtain ⟨vs, tail, h, htail⟩ := exists_splits b
  rw [sound_iff h htail]
  by_cases hlen : tail.length ≤ 3
  · -- a header at the most
    rw [meets_of_refused h htail (extract_of_short h hlen d)]
    constructor
    · intro hno
      refine ⟨fun lo hi rest heq => ?_, fun lo hi => hno lo hi [], fun _ lo hi rest heq => ?_⟩
      · have hrest : rest.length = 0 := by
          rw [heq] at hlen
          simp only [List.length_cons] at hlen
          omega
        omega
      · exact absurd heq (hno lo hi rest)
    · rintro ⟨-, hend, -⟩ lo hi rest heq
      obtain rfl : rest = [] := by
        refine List.length_eq_zero_iff.mp ?_
        rw [heq] at hlen
        simp only [List.length_cons] at hlen
        omega
      exact hend lo hi heq
  -- a header with something behind it
  obtain ⟨t, lo, hi, rest, rfl, hne⟩ : ∃ t lo hi rest, tail = t :: lo :: hi :: rest ∧ rest ≠ [] := by
    rcases tail with _ | ⟨t, _ | ⟨lo, _ | ⟨hi, _ | ⟨x, rest⟩⟩⟩⟩
    case cons.cons.cons.cons => exact ⟨t, lo, hi, x :: rest, rfl, List.cons_ne_nil _ _⟩
    all_goals exact absurd (by simp) hlen
  by_cases hinvalid : t = typeInvalid
  · subst hinvalid
    rw [meets_of_accepted h hne]
    constructor
    · intro hfirst
      refine ⟨fun _ _ _ heq => absurd (List.cons.inj heq).1 (by decide), fun lo' hi' heq => ?_,
        fun hvs _ _ _ _ _ => hfirst hvs⟩
      simp only [List.cons.injEq] at heq
      exact hne heq.2.2.2
    · rintro ⟨-, -, hfirst⟩ hvs
      exact hfirst hvs lo hi rest rfl hne
  obtain ⟨pos, hdrop, hrun⟩ := extract_of_splits h (List.cons_ne_nil _ _) d
  have hno : ∀ lo' hi' rest', t :: lo :: hi :: rest ≠ typeInvalid :: lo' :: hi' :: rest' :=
    fun _ _ _ heq => hinvalid (List.cons.inj heq).1
  by_cases huname : t = typeUname
  · subst huname
    rw [extract_uname hdrop hne] at hrun
    by_cases hend : rest.length ≤ lo.toNat + 256 * hi.toNat
    · rw [if_pos hend] at hrun
      rw [meets_of_refused h htail ⟨_, hrun⟩]
      refine iff_of_true hno ⟨fun lo' hi' rest' heq => ?_, fun lo' hi' => hno lo' hi' [],
        fun _ lo' hi' rest' heq => absurd heq (hno lo' hi' rest')⟩
      simp only [List.cons.injEq, true_and] at heq
      obtain ⟨rfl, rfl, rfl⟩ := heq
      exact hend
    · -- the copy runs over the end of `uname`
      rw [if_neg hend] at hrun
      by_cases hsize : lo.toNat + 256 * hi.toNat ≤ maxUnameSize
      · refine absurd (eq_record (Nat.le_of_not_le hend)) (htail _ _ ?_)
        rw [List.length_take]
        omega
      · rw [if_neg hsize] at hrun
        refine iff_of_false ?_ fun hsound => hend (hsound.1 lo hi rest rfl)
        rintro ⟨ret, d', heq, -⟩
        rw [hrun] at heq
        cases heq
  · rw [extract_other hdrop hne hinvalid huname] at hrun
    rw [meets_of_refused h htail ⟨_, hrun⟩]
    exact iff_of_true hno ⟨fun _ _ _ heq => absurd (List.cons.inj heq).1 huname,
      fun lo' hi' => hno lo' hi' [], fun _ lo' hi' rest' heq => absurd heq (hno lo' hi' rest')⟩

end Meets

/-- A record of 1025 bytes, and the record that ends the buffer. -/
def overlong : List UInt8 := typeUname :: 1 :: 4 :: (List.replicate 1025 65 ++ [0, 0, 0, 0])

/-- **A name that is too long is copied.**  Only the end of the buffer bounds the copy. -/
theorem overlong_overflows :
    qcomWdtExtractCrashdumpData ⟨overlong, 0⟩ ⟨[], 0⟩ = .error .outOfBounds ∧
      ¬ Meets overlong ⟨[], 0⟩ := by
  have heq : qcomWdtExtractCrashdumpData ⟨overlong, 0⟩ ⟨[], 0⟩ = .error .outOfBounds := by
    have hne : List.replicate 1025 (65 : UInt8) ++ [0, 0, 0, 0] ≠ [] :=
      List.append_ne_nil_of_right_ne_nil _ (List.cons_ne_nil _ _)
    have hend : ¬ (List.replicate 1025 (65 : UInt8) ++ [0, 0, 0, 0]).length ≤
        (1 : UInt8).toNat + 256 * (4 : UInt8).toNat := by
      rw [List.length_append, List.length_replicate]
      decide
    rw [extract_uname rfl hne, if_neg hend]
    exact if_neg (by decide)
  refine ⟨heq, ?_⟩
  rintro ⟨ret, d', heq', -⟩
  rw [heq] at heq'
  cases heq'

/-! ### What arrives on the flash memory -/

/-- The functions of a buffered writer, on a device and for a start offset. -/
def Flash.fns (f : Flash) (accepts : Log → Bool) (temp : ℕ → UInt8) (w offset : ℕ) :
    FlashFns Cxt Fault :=
  ⟨fun _ => initWrite f true temp w offset, writeData f accepts, deinitWrite f accepts⟩

/-- **The dump.**  Of a buffer that is well formed and goes on behind its record of type
INVALID, the CPU context and the last name arrive on the flash memory, padded. -/
theorem dump_eq_plain_write {f : Flash} (hf : f ∈ [nand, emmc]) {w : ℕ} (hw : 0 < w)
    (hsize : w ≤ f.size) (offset : ℕ) (temp : ℕ → UInt8) (dev : ℕ → List UInt8)
    {accepts : Log → Bool} (haccepts : ∀ log, accepts log = true) {b : List UInt8}
    {vs : List (List UInt8)} {v : List UInt8} {lo hi : UInt8} {rest : List UInt8}
    (h : Splits b (vs ++ [v]) (typeInvalid :: lo :: hi :: rest)) (hne : rest ≠ [])
    {cpuContext : List UInt8} (hcpu : cpuContext.length = cpuContextDumpSize) (d : CrashdumpData) :
    ∃ d' c', qcomWdtExtractCrashdumpData ⟨b, 0⟩ d = .ok (0, d') ∧
      qcomWdtWriteCrashdumpData (f.fns accepts temp w offset) d' cpuContext = .ok c' ∧
      let stream := pad w 0xFF (cpuContext ++ v)
      let places := (List.range (stream.length / w)).map (place f w offset)
      (places.map (updateAll dev (written f w c'.log))).flatten = stream := by
  obtain ⟨pos, hdrop, heq⟩ := extract_of_splits h (List.cons_ne_nil _ _) d
  rw [extract_invalid hdrop hne] at heq
  have hv : v.length ≤ maxUnameSize := h.2 v (by simp)
  have htotal : [cpuContext, v].flatten.length < 2 ^ 31 := by
    simp only [List.flatten_cons, List.flatten_nil, List.length_append, List.length_nil, hcpu,
      cpuContextDumpSize, maxUnameSize] at *
    omega
  have hkind : f.size < 2 ^ 31 ∧ (0 < f.unit w ∧ f.unit w ≤ w) ∧ 2 ^ 32 ≤ f.addrs := by
    rw [List.mem_pair] at hf
    rcases hf with rfl | rfl
    · exact ⟨by decide, ⟨hw, le_rfl⟩, by decide⟩
    · exact ⟨by decide, ⟨Nat.one_pos, hw⟩, by decide⟩
  obtain ⟨c₀, c₂, c', hinit, -, hrun, hdeinit, -, -, -, -, hread⟩ :=
    exists_run hw hsize hkind.1 hkind.2.1 hkind.2.2 htotal offset temp dev haccepts
  refine ⟨_, c', heq, ?_, by simpa using hread⟩
  -- the two calls of the write function
  obtain ⟨c₁, hfirst, hsecond⟩ : ∃ c₁, writeData f accepts c₀ cpuContext = .ok c₁ ∧
      writeData f accepts c₁ v = .ok c₂ := by
    rw [List.foldlM_cons] at hrun
    rcases hone : writeData f accepts c₀ cpuContext with e | c₁
    · rw [hone] at hrun
      cases hrun
    · rw [hone, ok_bind, List.foldlM_cons] at hrun
      rcases htwo : writeData f accepts c₁ v with e | c₂'
      · rw [htwo] at hrun
        cases hrun
      · rw [htwo] at hrun
        cases hrun
        exact ⟨c₁, rfl, htwo⟩
  have hlast := (isLast_foldl (vs ++ [v]) d).2 v List.getLast?_concat
  have hbytes : @unameBytes Fault ((vs ++ [v]).foldl CrashdumpData.record d) = .ok v := by
    rw [unameBytes, if_pos (unameLength_le_of_ne_nil (by simp) d), hlast.1, hlast.2]
  unfold qcomWdtWriteCrashdumpData
  rw [hbytes]
  simp only [Flash.fns, hinit, Except.mapError, bind, Except.bind, hfirst, hsecond, hdeinit]

end Crashdump
