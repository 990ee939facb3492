/-
Data model of the web failsafe server (`httpd/httpd.c`).

`State` holds everything `httpd_appcall` keeps between two calls: the
application state `hs`, the file-scope statics, the globals of `net.c` it sets
and the RAM behind `webfailsafe_data_pointer`.  There is one `hs` for the whole
server: `hs` always points to the global `appstate`, whatever connection uIP is
calling for.  The progress output (`post_packet_counter`, the console, the LED
flag) has no effect on any of this and is left out.

`Event` is one call: what uIP has put into `uip_flags`, `uip_appdata`,
`uip_len` and `uip_conn` before it calls the application.
-/
import OpenMptcpRouter.Lib.Memory
import OpenMptcpRouter.Lib.CString

namespace Httpd

open CString

/-! ### Board configuration (`include/configs/ipq40xx_cdp.h`) -/

/-- `CONFIG_LOADADDR`. -/
def loadaddr : ℕ := 0x81000000

/-- `CONFIG_SYS_TEXT_BASE`: U-Boot itself starts here. -/
def sysTextBase : ℕ := 0x87300000

/-- `CONFIG_UBOOT_SIZE`. -/
def ubootSize : ℕ := 0x80000

/-- `CONFIG_MAX_UBOOT_SIZE`. -/
def maxUbootSize : ℕ := ubootSize

/-- `CONFIG_ART_SIZE`. -/
def artSize : ℕ := 0x10000

/-- `WEBFAILSAFE_UPLOAD_FW_SIZE_IN_BYTES`. -/
def uploadFwSizeInBytes : ℕ := 96 * 1024 * 1024

/-- Bound below which an upload counts as a small file. -/
def smallFileSize : ℕ := 10240

/-- Number of RAM addresses. -/
def ramSize : ℕ := 2 ^ 32

/-- Value of an `unsigned int`. -/
def u32 (x : ℤ) : ℕ := (x % 2 ^ 32).toNat

/-! ### Server state -/

/-- `hs->state`. -/
inductive ReqState
  | none
  | fileRequest
  | uploadRequest
  deriving DecidableEq, Repr

/-- `webfailsafe_upgrade_type`, as far as the server sets it. -/
inductive UpgradeType
  | firmware
  | uboot
  | art
  deriving DecidableEq, Repr

/-- The RAM, by address. -/
abbrev Ram := ℕ → UInt8

/-- The state of the server between two calls of `httpd_appcall`. -/
structure State where
  state : ReqState
  count : ℕ
  /-- the page from `hs->dataptr` on -/
  dataptr : List UInt8
  upload : ℕ
  uploadTotal : ℕ
  postDone : Bool
  uploadFailed : Bool
  dataStartFound : Bool
  smallFileFlag : Bool
  boundaryValue : Option (List UInt8)
  readyForUpgrade : Bool
  upgradeType : UpgradeType
  netBootFileXferSize : ℕ
  dataPointer : ℕ
  ram : Ram

/-- The initial globals, over RAM content `ram`. -/
def initial (ram : Ram) : State where
  state := .none
  count := 0
  dataptr := []
  upload := 0
  uploadTotal := 0
  postDone := false
  uploadFailed := false
  dataStartFound := false
  smallFileFlag := false
  boundaryValue := none
  readyForUpgrade := false
  upgradeType := .firmware
  netBootFileXferSize := 0
  dataPointer := 0
  ram := ram

/-! ### Events -/

/-- The bits of `uip_flags`. -/
structure Flags where
  ackdata : Bool := false
  newdata : Bool := false
  rexmit : Bool := false
  poll : Bool := false
  close : Bool := false
  abort : Bool := false
  connected : Bool := false
  timedout : Bool := false
  deriving DecidableEq, Repr

/-- One call of the application by uIP. -/
structure Event where
  /-- the connection `uip_conn` points to -/
  conn : ℕ
  /-- its local port, in host byte order -/
  lport : ℕ := 80
  flags : Flags
  /-- the segment `uip_appdata[0, uip_len)` -/
  seg : List UInt8 := []
  /-- what the packet buffer holds behind the segment -/
  stale : List UInt8 := []
  /-- `uip_conn->mss` -/
  mss : ℕ := 1446
  /-- `uip_conn->len` -/
  len : ℕ := 0
  /-- whether `malloc` succeeds during the call -/
  malloc : Bool := true
  /-- `uip_len` is 16 bits wide -/
  seg_lt : seg.length < 2 ^ 16 := by decide

/-- The packet buffer from `uip_appdata` on. -/
def Event.appdata (e : Event) : List UInt8 := e.seg ++ e.stale

/-- The packet buffer after `uip_appdata[uip_len] = '\0'`. -/
def Event.appdataZ (e : Event) : List UInt8 := e.seg ++ 0 :: e.stale.tail

/-- The call uIP makes for a segment of new data on connection `c`. -/
def newData (c : ℕ) (seg : List UInt8) (h : seg.length < 2 ^ 16) : Event :=
  { conn := c, flags := { newdata := true }, seg := seg, seg_lt := h }

/-- The call uIP makes when connection `c` is established. -/
def connected (c : ℕ) : Event := { conn := c, flags := { connected := true } }

/-- The call uIP makes when the peer of connection `c` has closed it. -/
def closed (c : ℕ) : Event := { conn := c, flags := { close := true } }

/-- The call uIP makes when all outstanding data of connection `c` are acknowledged. -/
def acked (c : ℕ) : Event := { conn := c, flags := { ackdata := true } }

/-- How the application leaves `uip_flags`. -/
inductive Reply
  | none
  | close
  | abort
  deriving DecidableEq, Repr

/-- What a call does besides changing the state. -/
structure Out where
  reply : Reply := .none
  /-- the bytes handed to `uip_send` -/
  send : Option (List UInt8) := none
  /-- the stores through `webfailsafe_data_pointer`, as address and length -/
  stores : List (ℕ × ℕ) := []
  deriving DecidableEq, Repr

/-! ### The read-only file system (`httpd/fs.c`) -/

/-- `struct fsdata_file`. -/
structure FsFile where
  name : List UInt8
  data : List UInt8

/-- `FS_ROOT` with the four pages the server names itself.  The pages are
generated by the build (`fsdata.c`), so they are a parameter; each of the four is
a member of the list. -/
structure Fs where
  root : List FsFile
  indexHtml : FsFile
  notFoundHtml : FsFile
  flashingHtml : FsFile
  failHtml : FsFile
  index_mem : indexHtml ∈ root
  notFound_mem : notFoundHtml ∈ root
  flashing_mem : flashingHtml ∈ root
  fail_mem : failHtml ∈ root

instance : Inhabited Fs where
  default :=
    let page (name text : String) : FsFile := ⟨ascii name, ascii text⟩
    { root := [page "/404.html" "not found", page "/fail.html" "failed",
        page "/flashing.html" "flashing", page "/index.html" "upload"]
      indexHtml := page "/index.html" "upload"
      notFoundHtml := page "/404.html" "not found"
      flashingHtml := page "/flashing.html" "flashing"
      failHtml := page "/fail.html" "failed"
      index_mem := by simp
      notFound_mem := by simp
      flashing_mem := by simp
      fail_mem := by simp }

/-- `fs_strcmp (str1, str2) == 0`: the comparison ends at the end of `str2` or at
a line end in `str1`. -/
def fsStrcmp : List UInt8 → List UInt8 → Bool
  | _, [] => true
  | [], _ :: _ => false
  | c :: cs, d :: ds => c = 13 || c = 10 || (c = d && fsStrcmp cs ds)

/-- `fs_open`. -/
def fsOpen (fs : Fs) (name : List UInt8) : Option FsFile :=
  fs.root.find? fun f => fsStrcmp name f.name

/-- `fs_open` of one of the server's own pages. -/
def fsPage (fs : Fs) (f : FsFile) : FsFile := (fsOpen fs f.name).getD f

end Httpd
