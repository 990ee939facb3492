/-
The web failsafe server (`httpd/httpd.c`): one call of `httpd_appcall`.

The definitions follow the source function by function and branch by branch;
each `handle…` is one branch of `httpd_appcall`, split off so that it can be
reasoned about alone:

* `handleRequest` — new data in `STATE_NONE`: `GET` (`handleGet`) or `POST`
  (`handlePost`);
* `handleAcked`, `handleRexmit` — pages on their way to the browser;
* `handleBody` — new data in `STATE_UPLOAD_REQUEST`.

Two things are easily overlooked in the source and matter here.  After
`"Content-Length:"` the parser skips `sizeof` of the literal, one character more
than its length.  And `httpd_state_reset` leaves `webfailsafe_post_done`,
`webfailsafe_upload_failed`, `small_file_flag` and `webfailsafe_upgrade_type`
as they are.
-/
import OpenMptcpRouter.Fwtool
import OpenMptcpRouter.Httpd.State
import OpenMptcpRouter.Lib.Run

namespace Httpd

open CString Memory Fwtool

/-- `eol`. -/
def eol : List UInt8 := [13, 10]

/-- `eol2`. -/
def eol2 : List UInt8 := [13, 10, 13, 10]

/-- `httpd_state_reset`. -/
def httpdStateReset (s : State) : State :=
  { s with
    state := .none, count := 0, dataptr := [], upload := 0, uploadTotal := 0,
    dataStartFound := false, boundaryValue := none }

/-- `httpd_state_reset (); uip_abort (); return;` -/
def resetAbort (s : State) : State × Out := (httpdStateReset s, { reply := .abort })

/-- The bytes of `uip_send (hs->dataptr, min (hs->upload, uip_mss ()))`. -/
def chunk (s : State) (mss : ℕ) : List UInt8 :=
  s.dataptr.take (if mss < s.upload then mss else s.upload)

/-! ### Finding the start of the data -/

/-- The upgrade type named behind offset `start`; the three names are tried in
the order of the source. -/
def upgradeTypeAt (buf : List UInt8) (start : ℕ) : Option UpgradeType :=
  if (strstr buf start (ascii "name=\"firmware\"")).isSome then some .firmware
  else if (strstr buf start (ascii "name=\"uboot\"")).isSome then some .uboot
  else if (strstr buf start (ascii "name=\"art\"")).isSome then some .art
  else none

/-- The size check made when the first chunk is stored. -/
def sizeRefused (t : UpgradeType) (total : ℕ) : Bool :=
  if t = .uboot ∧ maxUbootSize < total then true
  else if t = .art ∧ total ≠ artSize then true
  else decide (uploadFwSizeInBytes < total)

/-- Storing the first chunk: the data start at offset `stop`, the boundary was
found at `start`. -/
def storeFirstchunk (s : State) (e : Event) (bv : List UInt8) (start stop : ℕ) : State :=
  let total := u32 ((s.uploadTotal : ℤ) - ((stop : ℤ) - start) - bv.length - 6)
  let upload := u32 ((e.seg.length : ℤ) - stop)
  { s with
    uploadTotal := total
    uploadFailed := s.uploadFailed || sizeRefused s.upgradeType total
    upload := upload
    ram := store ramSize s.ram s.dataPointer ((e.appdataZ.drop stop).take upload)
    dataPointer := (s.dataPointer + upload) % ramSize }

/-- `httpd_findandstore_firstchunk`: the new state, the return value and the
bytes stored. -/
def httpdFindandstoreFirstchunk (s : State) (e : Event) : State × Bool × List (ℕ × ℕ) :=
  match s.boundaryValue with
  | none => (s, false, [])
  | some bv =>
    match strstr e.appdataZ 0 bv with
    | none => (s, false, [])
    | some start =>
      match upgradeTypeAt e.appdataZ start with
      | none => (s, false, [])
      | some t =>
        match strstr e.appdataZ start eol2 with
        | none => ({ s with upgradeType := t }, false, [])
        | some stop =>
          if stop < e.seg.length then
            let s' := storeFirstchunk { s with upgradeType := t } e bv start (stop + 4)
            (s', true, [(s.dataPointer, s'.upload)])
          else ({ s with upgradeType := t }, false, [])

/-! ### Requests -/

/-- Byte `i` of the packet buffer. -/
def byteAt (buf : List UInt8) (i : ℕ) : UInt8 := buf.getD i 0

/-- `GET` followed by a blank or a tab. -/
def isGet (buf : List UInt8) : Bool :=
  byteAt buf 0 = 0x47 && byteAt buf 1 = 0x45 && byteAt buf 2 = 0x54
    && (byteAt buf 3 = 0x20 || byteAt buf 3 = 0x09)

/-- `POST` followed by a blank or a tab. -/
def isPost (buf : List UInt8) : Bool :=
  byteAt buf 0 = 0x50 && byteAt buf 1 = 0x4f && byteAt buf 2 = 0x53 && byteAt buf 3 = 0x54
    && (byteAt buf 4 = 0x20 || byteAt buf 4 = 0x09)

/-- The name a `GET` asks for: it ends at a blank, CR, LF or tab among the bytes
4 to 29 of the buffer. -/
def requestName (buf : List UInt8) : Option (List UInt8) :=
  (((buf.drop 4).take 26).findIdx? fun c => c = 0x20 || c = 0x0d || c = 0x0a || c = 0x09).map
    fun k => cstr ((buf.drop 4).take k)

/-- The page a `GET` of `name` is answered with. -/
def requestFile (fs : Fs) (name : List UInt8) : FsFile :=
  if name = [0x2f] then fsPage fs fs.indexHtml
  else (fsOpen fs name).getD (fsPage fs fs.notFoundHtml)

/-- `hs` set up to send page `f`. -/
def servePage (s : State) (f : FsFile) : State :=
  { s with state := .fileRequest, dataptr := f.data, upload := u32 f.data.length }

/-- New data in `STATE_NONE`, a `GET` request. -/
def handleGet (fs : Fs) (s : State) (e : Event) : State × Out :=
  match requestName e.appdata with
  | none => resetAbort s
  | some name =>
    let s' := servePage s (requestFile fs name)
    (s', { send := some (chunk s' e.mss) })

/-- The value of `Content-Length`, and whether its line ends in this segment. -/
def contentLength (buf : List UInt8) : Option ℕ :=
  match strstr buf 0 (ascii "Content-Length:") with
  | none => none
  | some i =>
    match strstr buf (i + 16) eol with
    | none => none
    | some _ => some (atoi buf (i + 16))

/-- The boundary value with its leading `--`. -/
def boundary (buf : List UInt8) : Option (List UInt8) :=
  match strstr buf 0 (ascii "boundary=") with
  | none => none
  | some i =>
    match strstr buf (i + 9) eol with
    | none => none
    | some j => some (ascii "--" ++ (buf.drop (i + 9)).take (j - (i + 9)))

/-- The state in which the search for the first chunk starts: headers read,
`memset` done. -/
def beginUpload (s : State) (n : ℕ) (bv : List UInt8) : State :=
  { s with
    state := .uploadRequest
    uploadTotal := n
    smallFileFlag := s.smallFileFlag || decide (n < smallFileSize)
    boundaryValue := some bv
    dataPointer := loadaddr
    ram := fill ramSize s.ram loadaddr 0xFF maxUbootSize }

/-- New data in `STATE_NONE`, a `POST` request. -/
def handlePost (s : State) (e : Event) : State × Out :=
  match contentLength e.appdataZ with
  | none => resetAbort s
  | some n =>
    -- the small file flag is set before the boundary is looked for
    let s₁ := { s with smallFileFlag := s.smallFileFlag || decide (n < smallFileSize) }
    match boundary e.appdataZ with
    | none => resetAbort s₁
    | some bv =>
      if e.malloc then
        let r := httpdFindandstoreFirstchunk (beginUpload s n bv) e
        ({ r.1 with dataStartFound := r.2.1 },
          { stores := (loadaddr, maxUbootSize) :: r.2.2 })
      else resetAbort s₁

/-- New data in `STATE_NONE`. -/
def handleRequest (fs : Fs) (s : State) (e : Event) : State × Out :=
  if isGet e.appdata then handleGet fs s e
  else if isPost e.appdata then handlePost s e
  else resetAbort s

/-! ### Pages on their way -/

/-- What an acknowledged last chunk does to a pending upload. -/
def commit (s : State) : State :=
  if s.postDone then
    { s with
      readyForUpgrade := s.readyForUpgrade || !s.uploadFailed
      postDone := false
      uploadFailed := false }
  else s

/-- `uip_acked ()`. -/
def handleAcked (s : State) (e : Event) : State × Out :=
  if s.state = .fileRequest then
    if s.upload ≤ e.mss then (httpdStateReset (commit s), { reply := .close })
    else
      let s' := { s with dataptr := s.dataptr.drop e.len, upload := u32 ((s.upload : ℤ) - e.len) }
      (s', { send := some (chunk s' e.mss) })
  else (s, {})

/-- `uip_rexmit ()`. -/
def handleRexmit (s : State) (e : Event) : State × Out :=
  if s.state = .fileRequest then (s, { send := some (chunk s e.mss) }) else (s, {})

/-! ### The body of an upload -/

/-- `fwtool_validate_manifest ((void *)CONFIG_LOADADDR, length)`. -/
def validate (ram : Ram) (length : ℕ) : FwtoolRet :=
  fwtoolValidateManifest (fun off => ram (u32 (loadaddr + off))) length

/-- The segment appended to the data, unless the upload has failed. -/
def storeBody (s : State) (e : Event) : State :=
  let s' := { s with upload := u32 (s.upload + e.seg.length) }
  if s.uploadFailed then s'
  else
    { s' with
      ram := store ramSize s.ram s.dataPointer e.seg
      dataPointer := (s.dataPointer + e.seg.length) % ramSize }

/-- `hs->upload >= hs->upload_total + strlen (boundary_value) + 6`. -/
def bodyComplete (s : State) : Bool :=
  u32 (s.uploadTotal + (s.boundaryValue.getD []).length + 6) ≤ s.upload

/-- Whether the upload is failed once its manifest has been checked. -/
def failedAtEnd (s : State) : Bool :=
  s.uploadFailed ||
    decide (s.upgradeType = .firmware ∧ validate s.ram s.uploadTotal ≠ .firmwareValid)

/-- End of the upload: the page is chosen, `hs` is reset and the page is served. -/
def finishUpload (fs : Fs) (s : State) : State :=
  servePage
    (httpdStateReset
      { s with
        postDone := true
        netBootFileXferSize := s.uploadTotal
        uploadFailed := failedAtEnd s
        smallFileFlag := false })
    (fsPage fs (if failedAtEnd s then fs.failHtml else fs.flashingHtml))

/-- `uip_newdata ()` outside `STATE_NONE`. -/
def handleBody (fs : Fs) (s : State) (e : Event) : State × Out :=
  if s.state = .uploadRequest then
    if !s.smallFileFlag && !s.dataStartFound then
      let r := httpdFindandstoreFirstchunk s e
      if r.2.1 then ({ r.1 with dataStartFound := true }, { stores := r.2.2 })
      else (httpdStateReset r.1, { reply := .abort, stores := r.2.2 })
    else
      let stores := if s.uploadFailed then [] else [(s.dataPointer, e.seg.length)]
      let s' := storeBody s e
      if bodyComplete s' then
        let s'' := finishUpload fs s'
        (s'', { send := some (chunk s'' e.mss), stores := stores })
      else (s', { stores := stores })
  else (s, {})

/-- `httpd_appcall`. -/
def httpdAppcall (fs : Fs) (s : State) (e : Event) : State × Out :=
  if e.lport = 80 then
    if e.flags.close then (httpdStateReset s, { reply := .close })
    else if e.flags.abort || e.flags.timedout then resetAbort s
    else if e.flags.poll then
      if 100 ≤ s.count then resetAbort s else ({ s with count := s.count + 1 }, {})
    else if e.flags.connected then (httpdStateReset s, {})
    else if e.flags.newdata && s.state = .none then handleRequest fs s e
    else if e.flags.ackdata then handleAcked s e
    else if e.flags.rexmit then handleRexmit s e
    else if e.flags.newdata then handleBody fs s e
    else (s, {})
  else (s, { reply := .abort })

/-- The server after the events `es`. -/
abbrev serve (fs : Fs) (s : State) (es : List Event) : State := Run.exec (httpdAppcall fs) s es

end Httpd
