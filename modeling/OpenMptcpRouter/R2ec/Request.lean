/-
The requests to the GPIO controller (`r2ec.c`, `io.h`).

A request is built in a buffer on the stack and handed to `i2c_master_send` from there.
`stm32Write` fills the whole of its buffer, checksum included.  `stm32GpioWrite` and
`stm32GpioRead` have a buffer that is one byte longer than what they fill, so that the
last byte they send is whatever the stack held there.

* `stm32Write_eq` — what `stm32Write` sends is the request of the protocol;
* `gpioFrame_eq` — what the GPIO functions send, last byte included, and
  `not_wellFormed_gpioFrame_of_odd` — half of all stack contents are wrong for every request;
* `requests_wellFormed_iff` — **the requests of a run are well formed exactly when the
  stack happens to hold the checksum** at every GPIO request.
-/
import OpenMptcpRouter.Lib.Emitting
import OpenMptcpRouter.Lib.Regions
import OpenMptcpRouter.Lib.Run
import OpenMptcpRouter.R2ec.Response

namespace R2ec

open Emitting Regions

/-! ### The codes of the protocol (`io.h`) -/

/-- `PROTO_VERSION_1`. -/
def protoVersion1 : Byte := 0x01

/-- `PROTO_VERSION_2`. -/
def protoVersion2 : Byte := 0x02

/-- `enum cmd_type_id`. -/
inductive CmdTypeId
  | gpio
  | proto
  | fw
  | boot
  deriving DecidableEq, Repr

/-- The byte that stands for the command. -/
def CmdTypeId.code : CmdTypeId → Byte
  | .gpio => 0x06
  | .proto => 0xFC
  | .fw => 0xFD
  | .boot => 0xFE

/-- `enum gpio_mode`. -/
inductive GpioMode
  | valueSetLow
  | valueSetHigh
  | valueGet
  | modeSetOutput
  | modeSetInput
  deriving DecidableEq, Repr

/-- The byte that stands for the mode. -/
def GpioMode.code : GpioMode → Byte
  | .valueSetLow => 0x00
  | .valueSetHigh => 0x01
  | .valueGet => 0x02
  | .modeSetOutput => 0x04
  | .modeSetInput => 0x05

/-- `PROTO_GET_SUPPORTED`. -/
def protoGetSupported : Byte := 0x03

/-- `BOOT_START_APP`. -/
def bootStartApp : Byte := 0x03

/-- `BOOT_STATE`. -/
def bootState : Byte := 0xFD

/-- `BOOT_VERSION`. -/
def bootVersion : Byte := 0xFE

/-- `FW_VERSION`. -/
def fwVersion : Byte := 0x01

/-- `NO_IMAGE_FOUND`. -/
def noImageFound : Byte := 0x17

/-- `APP_STARTED`. -/
def appStarted : Byte := 0xFC

/-- `NO_DATA_AVAILABLE`. -/
def noDataAvailable : Byte := 0xFF

/-- `STATUS_ACK`. -/
def statusAck : Byte := 0x7D

/-- `GPIO_STATE_HIGH`. -/
def gpioStateHigh : Byte := 0x1E

/-- `GPIO_STATE_LOW`. -/
def gpioStateLow : Byte := 0x9F

/-- `EIO`. -/
def eio : Errno := .other 5

/-! ### The driver and what it calls -/

/-- What the driver keeps between two operations. -/
structure Driver where
  /-- `g_proto` -/
  gProto : Byte
  /-- `gpio->client` is not `NULL` -/
  client : Bool
  /-- `gpio->ic_ready` -/
  icReady : Bool
  deriving DecidableEq, Repr

/-- The driver once the module is loaded. -/
def loaded : Driver := ⟨0, false, false⟩

/-- What an operation meets: for its `k`-th request what the stack holds in the place of
the buffer and the error of `i2c_master_send`, and for its `k`-th reading what
`i2c_master_recv` returns, attempt after attempt. -/
structure Bus where
  stack : ℕ → ℕ → Byte
  send : ℕ → Option Errno
  recv : ℕ → ℕ → Except Errno (List Byte)

/-- The bus from the `n`-th request and the `n`-th reading on. -/
def Bus.shift (bus : Bus) (n : ℕ) : Bus where
  stack k := bus.stack (n + k)
  send k := bus.send (n + k)
  recv k := bus.recv (n + k)

/-- A function of the driver: it sends frames. -/
abbrev Io := Emitting Driver (List Byte) Errno

/-! ### Requests -/

/-- `sizeof(struct i2c_request)`: version, length, command, one byte of data. -/
def requestSize : ℕ := 5

/-- The two bytes of a `uint16_t`. -/
def u16 (n : ℕ) : List Byte := [BitVec.ofNat 8 n, BitVec.ofNat 8 (n / 256)]

/-- The buffer `tmp` with the fields of `struct i2c_request` set and `data` copied in. -/
def fillRequest (tmp : ℕ → Byte) (ver : Byte) (cmd : CmdTypeId) (data : List Byte) : ℕ → Byte :=
  put (put tmp 0 (ver :: u16 (2 + data.length) ++ [cmd.code])) 4 data

/-- `i2c_master_send`. -/
def i2cMasterSend (bus : Bus) (k : ℕ) (frame : List Byte) : Io Unit := do
  emit frame
  match bus.send k with
  | some err => fail err
  | none => pure ()

/-- `stm32_write`. -/
def stm32Write (bus : Bus) (k : ℕ) (client : Bool) (ver : Byte) (cmd : CmdTypeId)
    (data : List Byte) : Io Unit :=
  if !client then fail .enxio
  else
    let tmpLen := requestSize + 1
    let tmp := fillRequest (bus.stack k) ver cmd data
    let tmp := put tmp (4 + data.length) [calcCrc8 (window tmp 0 (tmpLen - 1))]
    i2cMasterSend bus k (window tmp 0 tmpLen)

/-- What `stm32_gpio_write` and `stm32_gpio_read` hand to `i2c_master_send`. -/
def gpioFrame (stack : ℕ → Byte) (pin : ℕ) (val : GpioMode) : List Byte :=
  window (fillRequest stack protoVersion2 .gpio [BitVec.ofNat 8 pin, val.code]) 0 (requestSize + 2)

/-- `stm32_gpio_write`. -/
def stm32GpioWrite (bus : Bus) (k pin : ℕ) (val : GpioMode) : Io Unit := do
  let gpio ← read
  if !gpio.client then fail .enxio
  else
    -- what `i2c_master_send` returns is dropped
    orElse (i2cMasterSend bus k (gpioFrame (bus.stack k) pin val)) (pure ())

/-- `stm32_gpio_read`. -/
def stm32GpioRead (bus : Bus) (k pin : ℕ) (val : GpioMode) : Io Bool := do
  let gpio ← read
  if !gpio.client then fail .enxio
  else
    i2cMasterSend bus k (gpioFrame (bus.stack k) pin val)
    let recv ← ofExcept (bus.recv k 0)
    if byteAt recv 0 = gpioStateHigh then pure true
    else if byteAt recv 0 = gpioStateLow then pure false
    else fail eio

/-! ### Operations -/

/-- `r2ec_get`. -/
def r2ecGet (bus : Bus) (offset : ℕ) : Io Bool := stm32GpioRead bus 0 offset .valueGet

/-- The mode `r2ec_set` asks for. -/
def setMode (value : ℤ) : GpioMode := if value ≠ 0 then .valueSetHigh else .valueSetLow

/-- `r2ec_set`. -/
def r2ecSet (bus : Bus) (k offset : ℕ) (value : ℤ) : Io Unit :=
  orElse (stm32GpioWrite bus k offset (setMode value)) (pure ())

/-- `r2ec_input`. -/
def r2ecInput (bus : Bus) (offset : ℕ) : Io Unit := stm32GpioWrite bus 0 offset .modeSetInput

/-- `r2ec_output`. -/
def r2ecOutput (bus : Bus) (offset : ℕ) (value : ℤ) : Io Unit := do
  let status ← attempt (stm32GpioWrite bus 0 offset .modeSetOutput)
  r2ecSet bus 1 offset value
  ofExcept status

/-- The numbers `get_stm32_version` prints. -/
structure Version where
  major : Byte
  middle : Byte
  minor : Byte
  rev : Byte
  deriving DecidableEq, Repr

/-- `get_stm32_version` while it holds `i2c_lock`, up to the label `done`. -/
def readVersion (bus : Bus) (proto : Byte) (type : CmdTypeId) : Io (Option Version) := do
  stm32Write bus 0 true proto type [if type = .fw then fwVersion else bootVersion]
  let data ← ofExcept (stm32Read true (bus.recv 0) 1)
  if byteAt data 0 ≠ protoVersion1 ∧ byteAt data 0 ≠ protoVersion2 then pure none
  else
    let recv ← ofExcept (stm32Read true (bus.recv 1) (responseSize - 1))
    update fun gpio => { gpio with icReady := true }
    -- `res` points to the third byte behind the first one read
    pure (some ⟨byteAt recv 3, byteAt recv 4, byteAt recv 5, byteAt recv 6⟩)

/-- `get_stm32_version`; `found` is whether `gpiochip_find` finds the chip. -/
def getStm32Version (bus : Bus) (found : Bool) (type : CmdTypeId) : Io (Option Version) := do
  let gpio ← read
  if !found then fail .enxio
  else if !gpio.client then fail .enxio
  else orElse (readVersion bus gpio.gProto type) (pure none)

/-- `reset_store`. -/
def resetStore (bus : Bus) (found : Bool) : Io Unit := do
  let gpio ← read
  if !found then fail .enxio
  else if !gpio.client then fail .enxio
  else orElse (stm32Write bus 0 true gpio.gProto .boot [bootStartApp]) (pure ())

/-- `stm32_prepare`. -/
def stm32Prepare (bus : Bus) : Io Unit := do
  stm32Write bus 0 true protoVersion1 .proto [protoGetSupported]
  let rsp ← ofExcept (stm32Read true (bus.recv 0) responseSize)
  let supported := byteAt rsp 4
  -- fallback to version 1
  let proto :=
    if supported ≠ protoVersion1 ∧ supported ≠ protoVersion2 then protoVersion1 else supported
  update fun gpio => { gpio with gProto := proto }
  stm32Write bus 1 true proto .boot [bootState]
  let recv ← ofExcept (stm32Read true (bus.recv 1) 1)
  update fun gpio => { gpio with icReady := false }
  if byteAt recv 0 = noImageFound ∨ byteAt recv 0 = appStarted then
    update fun gpio => { gpio with icReady := true }
  else
    stm32Write bus 2 true proto .boot [bootStartApp]
    let recv ← ofExcept (stm32Read true (bus.recv 2) 1)
    if byteAt recv 0 ≠ statusAck ∧ byteAt recv 0 ≠ noDataAvailable then fail eio else pure ()

/-- The loop of `r2ec_probe`: attempt `i`, with `left` attempts to come. -/
def tryPrepare (bus : Bus) : (left i : ℕ) → Io Unit
  | 0, i => stm32Prepare (bus.shift (3 * i))
  | left + 1, i => orElse (stm32Prepare (bus.shift (3 * i))) (tryPrepare bus left (i + 1))

/-- `r2ec_probe` on a fresh `struct r2ec`; what it registers sends nothing. -/
def r2ecProbe (bus : Bus) : Io Unit := do
  update fun gpio => { gpio with client := false, icReady := false }
  tryPrepare bus 9 0
  update fun gpio => { gpio with client := true }

/-- What the kernel and the users of the device can ask the driver for. -/
inductive Operation
  | probe
  | get (offset : ℕ)
  | set (offset : ℕ) (value : ℤ)
  | input (offset : ℕ)
  | output (offset : ℕ) (value : ℤ)
  | appVersion
  | bootVersion
  | reset
  deriving DecidableEq, Repr

/-- An operation with what it meets. -/
structure Event where
  operation : Operation
  bus : Bus
  /-- whether `gpiochip_find` finds the chip -/
  found : Bool := true

/-- What an operation returns. -/
inductive Answer
  | done
  | level (high : Bool)
  | version (text : Option Version)
  deriving DecidableEq, Repr

/-- The operation at hand. -/
def perform (e : Event) : Io Answer :=
  match e.operation with
  | .probe => do r2ecProbe e.bus; pure .done
  | .get offset => do return .level (← r2ecGet e.bus offset)
  | .set offset value => do r2ecSet e.bus 0 offset value; pure .done
  | .input offset => do r2ecInput e.bus offset; pure .done
  | .output offset value => do r2ecOutput e.bus offset value; pure .done
  | .appVersion => do return .version (← getStm32Version e.bus e.found .fw)
  | .bootVersion => do return .version (← getStm32Version e.bus e.found .boot)
  | .reset => do resetStore e.bus e.found; pure .done

/-- One operation of the driver. -/
def operate (gpio : Driver) (e : Event) : Driver × Outcome Driver (List Byte) Errno Answer :=
  (((perform e).run gpio).state, (perform e).run gpio)

/-! ### Well-formed requests -/

/-- The bytes of a request besides its data: version, length, command and checksum. -/
def overhead : ℕ := 5

/-- The length field: bytes one and two, the low one in front. -/
def lengthField (frame : List Byte) : ℕ := (byteAt frame 1).toNat + 256 * (byteAt frame 2).toNat

/-- A frame is version, length, command, data and checksum, with the length of the data
plus 2 in its length field and the checksum of all bytes in front of it at its end. -/
structure WellFormed (frame : List Byte) : Prop where
  size : overhead ≤ frame.length
  length_eq : lengthField frame = (frame.length - overhead) + 2
  checksum : byteAt frame (frame.length - 1) = calcCrc8 (frame.take (frame.length - 1))

/-- A request in front of its checksum. -/
def body (ver cmd : Byte) (data : List Byte) : List Byte := ver :: u16 (2 + data.length) ++ cmd :: data

/-- The request with `data`. -/
def request (ver cmd : Byte) (data : List Byte) : List Byte :=
  body ver cmd data ++ [calcCrc8 (body ver cmd data)]

instance (frame : List Byte) : Decidable (WellFormed frame) :=
  decidable_of_iff (overhead ≤ frame.length ∧ lengthField frame = (frame.length - overhead) + 2 ∧
      byteAt frame (frame.length - 1) = calcCrc8 (frame.take (frame.length - 1)))
    ⟨fun h => ⟨h.1, h.2.1, h.2.2⟩, fun h => ⟨h.1, h.2, h.3⟩⟩

section WellFormed

variable {front : List Byte} {ver cmd c : Byte} {data : List Byte}

@[simp] theorem length_body : (body ver cmd data).length = 4 + data.length := by
  simp only [body, u16, List.cons_append, List.nil_append, List.length_cons]
  omega

theorem lengthField_cons (b₀ b₁ b₂ : Byte) (rest : List Byte) :
    lengthField (b₀ :: b₁ :: b₂ :: rest) = b₁.toNat + 256 * b₂.toNat := rfl

theorem lengthField_body (h : 2 + data.length < 2 ^ 16) :
    lengthField (body ver cmd data) = 2 + data.length := by
  rw [body, u16, List.cons_append, List.cons_append, List.cons_append, lengthField_cons,
    BitVec.toNat_ofNat, BitVec.toNat_ofNat]
  omega

theorem byteAt_append_left {i : ℕ} (h : i < front.length) (back : List Byte) :
    byteAt (front ++ back) i = byteAt front i := by
  rw [byteAt, byteAt, List.getD_eq_getElem?_getD, List.getElem?_append_left h,
    List.getD_eq_getElem?_getD]

/-- A frame is well formed when its front is a request without checksum and its last byte
is the checksum. -/
theorem wellFormed_concat_iff :
    WellFormed (front ++ [c]) ↔
      4 ≤ front.length ∧ lengthField front = (front.length - 4) + 2 ∧ c = calcCrc8 front := by
  have hlen : (front ++ [c]).length = front.length + 1 := List.length_append
  have hlast : byteAt (front ++ [c]) (front.length + 1 - 1) = c := by
    rw [Nat.add_sub_cancel, byteAt, List.getD_eq_getElem?_getD, List.getElem?_concat_length,
      Option.getD_some]
  have htake : (front ++ [c]).take (front.length + 1 - 1) = front := by
    rw [Nat.add_sub_cancel, List.take_left]
  have hfield : 4 ≤ front.length → lengthField (front ++ [c]) = lengthField front := by
    intro h
    rw [lengthField, lengthField, byteAt_append_left (by omega), byteAt_append_left (by omega)]
  constructor
  · rintro ⟨hsize, hfrm, hcrc⟩
    rw [hlen, overhead] at hsize
    have hsz : 4 ≤ front.length := by omega
    rw [hlen, hlast, htake] at hcrc
    rw [hfield hsz, hlen, overhead] at hfrm
    exact ⟨hsz, by omega, hcrc⟩
  · rintro ⟨hsz, hfrm, hcrc⟩
    refine ⟨?_, ?_, ?_⟩
    · rw [hlen, overhead]
      omega
    · rw [hfield hsz, hlen, overhead]
      omega
    · rw [hlen, hlast, htake]
      exact hcrc

theorem wellFormed_request (h : 2 + data.length < 2 ^ 16) : WellFormed (request ver cmd data) := by
  rw [request, wellFormed_concat_iff, lengthField_body h, length_body]
  exact ⟨by omega, by omega, rfl⟩

theorem u16_toNat (lo hi : Byte) : u16 (lo.toNat + 256 * hi.toNat) = [lo, hi] := by
  have hlo := lo.isLt
  have hdiv : (lo.toNat + 256 * hi.toNat) / 256 = hi.toNat := by omega
  have hmod : BitVec.ofNat 8 (lo.toNat + 256 * hi.toNat) = lo := by
    apply BitVec.eq_of_toNat_eq
    rw [BitVec.toNat_ofNat]
    omega
  rw [u16, hdiv, hmod, BitVec.ofNat_toNat, BitVec.setWidth_eq]

theorem exists_four_cons (h : 4 ≤ front.length) :
    ∃ b₀ b₁ b₂ b₃ rest, front = b₀ :: b₁ :: b₂ :: b₃ :: rest := by
  match front, h with
  | b₀ :: b₁ :: b₂ :: b₃ :: rest, _ => exact ⟨b₀, b₁, b₂, b₃, rest, rfl⟩

/-- **The well-formed frames are the requests.** -/
theorem wellFormed_iff {frame : List Byte} :
    WellFormed frame ↔
      ∃ ver cmd data, 2 + data.length < 2 ^ 16 ∧ frame = request ver cmd data := by
  constructor
  · intro h
    rcases List.eq_nil_or_concat' frame with rfl | ⟨front, c, rfl⟩
    · exact absurd h.size (by decide)
    obtain ⟨hsize, hfrm, rfl⟩ := wellFormed_concat_iff.mp h
    -- four bytes in front of the data
    obtain ⟨ver, lo, hi, cmd, data, rfl⟩ := exists_four_cons hsize
    have hfield : lo.toNat + 256 * hi.toNat = 2 + data.length := by
      rw [lengthField_cons] at hfrm
      simp only [List.length_cons] at hfrm
      omega
    have hbody : ver :: lo :: hi :: cmd :: data = body ver cmd data := by
      rw [body, ← hfield, u16_toNat]
      rfl
    have hlt : 2 + data.length < 2 ^ 16 := by
      have hlo := lo.isLt
      have hhi := hi.isLt
      omega
    rw [hbody]
    exact ⟨ver, cmd, data, hlt, rfl⟩
  · rintro ⟨ver, cmd, data, hlen, rfl⟩
    exact wellFormed_request hlen

end WellFormed

/-! ### What the functions send -/

section Sent

variable {bus : Bus} {k pin : ℕ} {val : GpioMode} {ver : Byte} {cmd : CmdTypeId}
  {data : List Byte}

theorem window_fillRequest (tmp : ℕ → Byte) (ver : Byte) (cmd : CmdTypeId) (data : List Byte) :
    window (fillRequest tmp ver cmd data) 0 (4 + data.length) = body ver cmd.code data := by
  have hfields : ∀ len, window (put tmp 0 (ver :: u16 len ++ [cmd.code])) 0 4 =
      ver :: u16 len ++ [cmd.code] := fun len => window_put_self tmp 0 _
  have happend := window_put_append (put tmp 0 (ver :: u16 (2 + data.length) ++ [cmd.code])) 0 4 data
  rw [hfields] at happend
  rw [fillRequest, body, happend]
  simp only [List.cons_append, List.append_assoc, List.nil_append]

/-- Behind the data the buffer is as it was. -/
theorem fillRequest_of_le {i : ℕ} (tmp : ℕ → Byte) (h : 4 + data.length ≤ i) :
    fillRequest tmp ver cmd data i = tmp i := by
  rw [fillRequest, put_of_outside (Or.inr h), put_of_outside]
  right
  simp only [u16, List.cons_append, List.nil_append, List.length_cons, List.length_nil]
  omega

/-- **The frames of the GPIO functions** end in what the stack held. -/
theorem gpioFrame_eq (stack : ℕ → Byte) (pin : ℕ) (val : GpioMode) :
    gpioFrame stack pin val =
      body protoVersion2 CmdTypeId.gpio.code [BitVec.ofNat 8 pin, val.code] ++
        [stack (requestSize + 1)] := by
  have hfront : window (fillRequest stack protoVersion2 .gpio [BitVec.ofNat 8 pin, val.code]) 0 6 =
      body protoVersion2 CmdTypeId.gpio.code [BitVec.ofNat 8 pin, val.code] :=
    window_fillRequest stack protoVersion2 .gpio [BitVec.ofNat 8 pin, val.code]
  rw [gpioFrame, requestSize, window_append _ 0 6 1, hfront]
  have hlast : fillRequest stack protoVersion2 .gpio [BitVec.ofNat 8 pin, val.code] 6 = stack 6 :=
    fillRequest_of_le stack (Nat.le_refl 6)
  exact congrArg (_ ++ [·]) hlast

theorem sent_i2cMasterSend (frame : List Byte) (s : Driver) :
    ((i2cMasterSend bus k frame).run s).sent = [frame] := by
  refine sent_bind_of_silent s fun _ s' => ?_
  rcases bus.send k with _ | err
  · rfl
  · rfl

/-- **What `stm32_write` sends** for one byte of data is the request, whatever the stack held. -/
theorem stm32Write_eq (hdata : data.length = 1) :
    stm32Write bus k true ver cmd data = i2cMasterSend bus k (request ver cmd.code data) := by
  have hfront := window_fillRequest (bus.stack k) ver cmd data
  have hwhole := window_put_append (fillRequest (bus.stack k) ver cmd data) 0 (4 + data.length)
    [calcCrc8 (body ver cmd.code data)]
  rw [hfront, Nat.zero_add] at hwhole
  rw [hdata] at hfront hwhole
  simp only [stm32Write, Bool.not_true, Bool.false_eq_true, if_false, requestSize, hdata]
  rw [hfront]
  exact congrArg (i2cMasterSend bus k) hwhole

theorem stm32GpioWrite_run (s : Driver) :
    ((stm32GpioWrite bus k pin val).run s).sent =
        (if s.client then [gpioFrame (bus.stack k) pin val] else []) ∧
      ((stm32GpioWrite bus k pin val).run s).state = s := by
  rw [stm32GpioWrite, run_read_bind]
  rcases hc : s.client with _ | _
  · exact ⟨rfl, rfl⟩
  · simp only [Bool.not_true, Bool.false_eq_true, if_false, if_true]
    refine ⟨?_, ?_⟩
    · rw [sent_orElse_of_silent s fun _ => rfl, sent_i2cMasterSend]
    · simp only [orElse, i2cMasterSend, bind, attempt, emit]
      rcases bus.send k with _ | err
      · rfl
      · rfl

theorem stm32GpioRead_sent (s : Driver) :
    ((stm32GpioRead bus k pin val).run s).sent =
      if s.client then [gpioFrame (bus.stack k) pin val] else [] := by
  rw [stm32GpioRead, run_read_bind]
  rcases hc : s.client with _ | _
  · rfl
  · simp only [Bool.not_true, Bool.false_eq_true, if_false, if_true]
    rw [sent_bind_of_silent s, sent_i2cMasterSend]
    intro _ s'
    refine sent_bind_of_silent s' fun recv s'' => ?_
    split_ifs <;> rfl

end Sent

/-! ### Requests that are always well formed -/

section Always

variable {bus : Bus} {k : ℕ} {ver : Byte} {cmd : CmdTypeId}

theorem emits_i2cMasterSend {P : List Byte → Prop} {frame : List Byte} (h : P frame) :
    Emits P (i2cMasterSend bus k frame) := by
  refine emits_bind (emits_emit h) fun _ => ?_
  rcases bus.send k with _ | err
  · exact emits_pure _
  · exact emits_fail err

theorem emits_stm32Write (d : Byte) : Emits WellFormed (stm32Write bus k true ver cmd [d]) := by
  have hlen : 2 + [d].length < 2 ^ 16 := show 2 + 1 < 2 ^ 16 by decide
  rw [stm32Write_eq rfl]
  exact emits_i2cMasterSend (wellFormed_request hlen)

theorem emits_readVersion (proto : Byte) (type : CmdTypeId) :
    Emits WellFormed (readVersion bus proto type) := by
  refine emits_bind (emits_stm32Write _) fun _ => emits_bind (emits_ofExcept _) fun data => ?_
  refine emits_ite (fun _ => emits_pure _) fun _ => ?_
  refine emits_bind (emits_ofExcept _) fun recv => emits_bind (emits_update _) fun _ => ?_
  exact emits_pure _

theorem emits_getStm32Version (found : Bool) (type : CmdTypeId) :
    Emits WellFormed (getStm32Version bus found type) := by
  refine emits_bind emits_read fun gpio => ?_
  refine emits_ite (fun _ => emits_fail _) fun _ => emits_ite (fun _ => emits_fail _) fun _ => ?_
  exact emits_orElse (emits_readVersion _ _) (emits_pure _)

theorem emits_resetStore (found : Bool) : Emits WellFormed (resetStore bus found) := by
  refine emits_bind emits_read fun gpio => ?_
  refine emits_ite (fun _ => emits_fail _) fun _ => emits_ite (fun _ => emits_fail _) fun _ => ?_
  exact emits_orElse (emits_stm32Write _) (emits_pure _)

theorem emits_stm32Prepare (bus : Bus) : Emits WellFormed (stm32Prepare bus) := by
  -- the supported version
  refine emits_bind (emits_stm32Write _) fun _ => emits_bind (emits_ofExcept _) fun rsp => ?_
  refine emits_bind (emits_update _) fun _ => ?_
  -- the state of the device
  refine emits_bind (emits_stm32Write _) fun _ => emits_bind (emits_ofExcept _) fun recv => ?_
  refine emits_bind (emits_update _) fun _ => ?_
  refine emits_ite (fun _ => emits_update _) fun _ => ?_
  -- the start of the application
  refine emits_bind (emits_stm32Write _) fun _ => emits_bind (emits_ofExcept _) fun recv' => ?_
  exact emits_ite (fun _ => emits_fail _) fun _ => emits_pure _

theorem emits_tryPrepare (bus : Bus) (left i : ℕ) : Emits WellFormed (tryPrepare bus left i) := by
  induction left generalizing i with
  | zero => exact emits_stm32Prepare _
  | succ left ih => exact emits_orElse (emits_stm32Prepare _) (ih (i + 1))

theorem emits_r2ecProbe (bus : Bus) : Emits WellFormed (r2ecProbe bus) := by
  refine emits_bind (emits_update _) fun _ => ?_
  exact emits_bind (emits_tryPrepare bus 9 0) fun _ => emits_update _

end Always

/-! ### The GPIO requests -/

/-- The byte of the stack behind the data is the checksum of a GPIO request. -/
def HoldsChecksum (stack : ℕ → Byte) (pin : ℕ) (val : GpioMode) : Prop :=
  stack (requestSize + 1) =
    calcCrc8 (body protoVersion2 CmdTypeId.gpio.code [BitVec.ofNat 8 pin, val.code])

theorem wellFormed_gpioFrame_iff {stack : ℕ → Byte} {pin : ℕ} {val : GpioMode} :
    WellFormed (gpioFrame stack pin val) ↔ HoldsChecksum stack pin val := by
  have hlen : 2 + [BitVec.ofNat 8 pin, val.code].length < 2 ^ 16 := show 2 + 2 < 2 ^ 16 by decide
  rw [gpioFrame_eq, wellFormed_concat_iff, lengthField_body hlen, length_body]
  exact ⟨fun h => h.2.2, fun h => ⟨Nat.le_add_right 4 2, rfl, h⟩⟩

/-- An odd byte is no checksum: with one behind the data a GPIO request is never well formed. -/
theorem not_wellFormed_gpioFrame_of_odd {stack : ℕ → Byte} {pin : ℕ} {val : GpioMode}
    (h : (stack (requestSize + 1)).getLsbD 0 = true) : ¬ WellFormed (gpioFrame stack pin val) := by
  rw [wellFormed_gpioFrame_iff, HoldsChecksum]
  intro heq
  rw [heq, calcCrc8_eq] at h
  exact absurd h (Bool.eq_false_iff.mp (Crc.crc_lsb 7 0xFF _ _))

/-- Each GPIO request of the operation finds its checksum on the stack, or there is no
client to send it to. -/
def ChecksumsOnStack (gpio : Driver) (e : Event) : Prop :=
  gpio.client = true →
    match e.operation with
    | .get offset => HoldsChecksum (e.bus.stack 0) offset .valueGet
    | .set offset value => HoldsChecksum (e.bus.stack 0) offset (setMode value)
    | .input offset => HoldsChecksum (e.bus.stack 0) offset .modeSetInput
    | .output offset value =>
      HoldsChecksum (e.bus.stack 0) offset .modeSetOutput ∧
        HoldsChecksum (e.bus.stack 1) offset (setMode value)
    | .probe | .appVersion | .bootVersion | .reset => True

section Run

variable {bus : Bus} {gpio : Driver}

theorem r2ecSet_sent (k offset : ℕ) (value : ℤ) :
    ((r2ecSet bus k offset value).run gpio).sent =
      if gpio.client then [gpioFrame (bus.stack k) offset (setMode value)] else [] := by
  rw [r2ecSet, sent_orElse_of_silent gpio fun _ => rfl]
  exact (stm32GpioWrite_run gpio).1

theorem r2ecOutput_sent (offset : ℕ) (value : ℤ) :
    ((r2ecOutput bus offset value).run gpio).sent =
      if gpio.client then
        [gpioFrame (bus.stack 0) offset .modeSetOutput, gpioFrame (bus.stack 1) offset (setMode value)]
      else [] := by
  obtain ⟨hsent, hstate⟩ := @stm32GpioWrite_run bus 0 offset .modeSetOutput gpio
  rw [r2ecOutput, sent_attempt_bind, hstate, sent_bind_of_silent _ fun _ _ => rfl, r2ecSet_sent,
    hsent]
  rcases gpio.client with _ | _ <;> rfl

/-- What the operations send at the GPIO requests. -/
theorem forall_sent_ite_iff {P : List Byte → Prop} {frames : List (List Byte)} :
    (∀ frame ∈ if gpio.client then frames else [], P frame) ↔
      (gpio.client = true → ∀ frame ∈ frames, P frame) := by
  rcases gpio.client with _ | _
  · simp
  · simp

/-- **One operation.** -/
theorem perform_wellFormed_iff (e : Event) :
    (∀ frame ∈ ((perform e).run gpio).sent, WellFormed frame) ↔ ChecksumsOnStack gpio e := by
  obtain ⟨operation, bus, found⟩ := e
  -- what goes through `stm32Write` is well formed; the GPIO functions send the stack's byte
  cases operation with
  | probe =>
    have hemits : Emits WellFormed (perform ⟨.probe, bus, found⟩) :=
      emits_bind (emits_r2ecProbe bus) fun _ => emits_pure _
    exact iff_of_true (hemits gpio) fun _ => trivial
  | get offset =>
    have hsent := @stm32GpioRead_sent bus 0 offset .valueGet gpio
    rw [perform, sent_bind_of_silent gpio fun _ _ => rfl, r2ecGet, hsent, forall_sent_ite_iff,
      List.forall_mem_singleton, wellFormed_gpioFrame_iff]
    rfl
  | set offset value =>
    rw [perform, sent_bind_of_silent gpio fun _ _ => rfl, r2ecSet_sent, forall_sent_ite_iff,
      List.forall_mem_singleton, wellFormed_gpioFrame_iff]
    rfl
  | input offset =>
    have hsent := (@stm32GpioWrite_run bus 0 offset .modeSetInput gpio).1
    rw [perform, sent_bind_of_silent gpio fun _ _ => rfl, r2ecInput, hsent, forall_sent_ite_iff,
      List.forall_mem_singleton, wellFormed_gpioFrame_iff]
    rfl
  | output offset value =>
    -- two requests, and the second is made whatever became of the first
    rw [perform, sent_bind_of_silent gpio fun _ _ => rfl, r2ecOutput_sent, forall_sent_ite_iff,
      List.forall_mem_cons, List.forall_mem_singleton, wellFormed_gpioFrame_iff,
      wellFormed_gpioFrame_iff]
    rfl
  | appVersion =>
    have hemits : Emits WellFormed (perform ⟨.appVersion, bus, found⟩) :=
      emits_bind (emits_getStm32Version found .fw) fun _ => emits_pure _
    exact iff_of_true (hemits gpio) fun _ => trivial
  | bootVersion =>
    have hemits : Emits WellFormed (perform ⟨.bootVersion, bus, found⟩) :=
      emits_bind (emits_getStm32Version found .boot) fun _ => emits_pure _
    exact iff_of_true (hemits gpio) fun _ => trivial
  | reset =>
    have hemits : Emits WellFormed (perform ⟨.reset, bus, found⟩) :=
      emits_bind (emits_resetStore found) fun _ => emits_pure _
    exact iff_of_true (hemits gpio) fun _ => trivial

end Run

/-- **The requests of a run** are all well formed exactly when at every operation each GPIO
request finds its checksum on the stack. -/
theorem requests_wellFormed_iff (gpio : Driver) (es : List Event) :
    (∀ r ∈ Run.outputs operate gpio es, ∀ frame ∈ r.sent, WellFormed frame) ↔
      Run.AllSteps operate ChecksumsOnStack gpio es := by
  rw [Run.forall_mem_outputs_iff]
  exact Run.allSteps_congr fun s e => @perform_wellFormed_iff s e

/-- The stack holds zeros, and the device supports version 2 and runs its application. -/
def quietBus : Bus where
  stack _ _ := 0
  send _ := none
  recv k _ := .ok (if k = 0 then protoReply else [appStarted])

/-- On a stack of zeros the request to set line 3 high is `02 04 00 06 03 01 00`, without
its checksum. -/
theorem requests_not_wellFormed :
    ¬ ∀ r ∈ Run.outputs operate loaded [⟨.probe, quietBus, true⟩, ⟨.set 3 1, quietBus, true⟩],
      ∀ frame ∈ r.sent, WellFormed frame := by
  decide +kernel

end R2ec
