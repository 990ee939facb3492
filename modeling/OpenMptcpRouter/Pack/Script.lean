/-
The flash script of `pack.py` (`FlashScript`, `NandScript`, `NorScript`, `EmmcScript`).

A script is a list of `hush` tokens over the commands the packer writes; `dumps` is its
text.  The methods append to it, and those that a flash type lacks or cannot carry out end
the packer with an exception.

* `essential` — the commands of a script that are more than chatter about its progress;
* `Extends s t cs` — `t` is `s` with tokens behind it, of which `cs` is essential; one lemma
  for each method says what it adds.
-/
import OpenMptcpRouter.Hush.Structured
import OpenMptcpRouter.Lib.Rounds

namespace Pack

open Hush Rounds

/-- A text, character by character. -/
abbrev Text := List Char

/-- The type of a `FlashInfo`. -/
inductive FlashType
  | nand
  | nor
  | norplusnand
  | emmc
  deriving DecidableEq, Repr

/-- `FlashInfo`; a block has a whole number of pages. -/
structure FlashInfo where
  type : FlashType
  pagesize : ℕ
  pagesPerBlock : ℕ

def FlashInfo.blocksize (fl : FlashInfo) : ℕ := fl.pagesPerBlock * fl.pagesize

/-- A command of the script. -/
inductive Command
  | test (left right : Text)
  | assign (var value : Text)
  | setenvStdout (dev : Text)
  | echo (msg : Text)
  | exit (code : ℕ)
  | imxtract (part : Text)
  | nandDevice (device : ℕ)
  | nandErase (offset size : ℤ)
  | nandWrite (offset size : ℤ)
  | nandWriteYaffs (offset size : ℤ)
  | sfProbe
  | sfErase (offset size : ℤ)
  | sfEraseEvents
  | sfWrite (offset size : ℤ)
  | mmcErase (offset size : ℤ)
  deriving DecidableEq, Repr

/-! ### The text of a script -/

/-- `%x`. -/
def hex (n : ℤ) : Text := (if n < 0 then ['-'] else []) ++ Nat.toDigits 16 n.natAbs

/-- `0x%08x`; the sign counts as one of the eight. -/
def hex08 (n : ℤ) : Text :=
  let sign : Text := if n < 0 then ['-'] else []
  let digits := Nat.toDigits 16 n.natAbs
  "0x".toList ++ sign ++ List.replicate (8 - sign.length - digits.length) '0' ++ digits

def Command.text : Command → Text
  | .test left right => "test \"".toList ++ left ++ "\" = \"".toList ++ right ++ "\"".toList
  | .assign var value => var ++ "='".toList ++ value ++ "'".toList
  | .setenvStdout dev => "setenv stdout ".toList ++ dev
  | .echo msg => "echo ".toList ++ msg
  | .exit code => "exit ".toList ++ Nat.toDigits 10 code
  | .imxtract part => "imxtract $imgaddr ".toList ++ part
  | .nandDevice device => "nand device ".toList ++ Nat.toDigits 10 device
  | .nandErase offset size => "nand erase ".toList ++ hex08 offset ++ [' '] ++ hex08 size
  | .nandWrite offset size =>
    "nand write $fileaddr ".toList ++ hex08 offset ++ [' '] ++ hex08 size
  | .nandWriteYaffs offset size =>
    "nand write.yaffs $fileaddr ".toList ++ hex08 offset ++ [' '] ++ hex08 size
  | .sfProbe => "sf probe".toList
  | .sfErase offset size => "sf erase ".toList ++ hex08 offset ++ " +".toList ++ hex08 size
  | .sfEraseEvents => "sf erase 0x00310000 +0x0090000".toList
  | .sfWrite offset size => "sf write $fileaddr ".toList ++ hex08 offset ++ [' '] ++ hex08 size
  | .mmcErase offset size => "mmc erase ".toList ++ hex08 offset ++ [' '] ++ hex size

def tokenText : Token Command → Text
  | .cmd c => c.text
  | .sep .seq => "; ".toList
  | .sep .and => " && ".toList
  | .sep .or => " || ".toList
  | .newline => ['\n']
  | .reserved .if => "if ".toList
  | .reserved .then => "then".toList
  | .reserved .elif => "elif ".toList
  | .reserved .else => "else".toList
  | .reserved .fi => "fi".toList
  | .reserved .none => []

/-! ### The script object -/

/-- `FlashScript` and its subclasses, told apart by the flash type. -/
structure FlashScript where
  flinfo : FlashInfo
  spiNand : Text
  script : List (Token Command) := []
  currStdout : Text := "serial".toList
  activity : Text := []

/-- `"".join(self.script)`. -/
def FlashScript.dumps (s : FlashScript) : Text := s.script.flatMap tokenText

/-- `self.script.append`. -/
def FlashScript.add (s : FlashScript) (toks : List (Token Command)) : FlashScript :=
  { s with script := s.script ++ toks }

/-- What stands behind a command that must not fail. -/
def onFailure : List (Token Command) :=
  [.sep .or, .cmd (.setenvStdout "serial".toList), .sep .and, .cmd (.echo "\"$failedmsg\"".toList),
    .sep .and, .cmd (.exit 1)]

/-- `append`. -/
def FlashScript.append (s : FlashScript) (cmd : List (Token Command)) : FlashScript :=
  s.add (cmd ++ onFailure ++ [.newline])

/-- `append` with `fatal=False`. -/
def FlashScript.appendPlain (s : FlashScript) (cmd : List (Token Command)) : FlashScript :=
  s.add (cmd ++ [.newline])

/-- `redirect`. -/
def FlashScript.redirect (s : FlashScript) (dev : Text) : FlashScript :=
  if s.currStdout = dev then s
  else { s.appendPlain [.cmd (.setenvStdout dev)] with currStdout := dev }

/-- `echo`; `\\c` stands before a message that gets no newline. -/
def FlashScript.echo (s : FlashScript) (msg : Text) (nl verbose : Bool) : FlashScript :=
  let s := if verbose then s else s.redirect "serial".toList
  let s := s.appendPlain [.cmd (.echo (if nl then msg else "\\\\c".toList ++ msg))]
  if verbose then s else s.redirect "nulldev".toList

/-- `if test "$var" = "value"; then`. -/
def ifTest (left right : Text) : List (Token Command) :=
  [.reserved .if, .cmd (.test left right), .sep .seq, .reserved .then, .newline]

def ifVerbose : List (Token Command) := ifTest "x$verbose".toList "x".toList

/-- `'#' * 40`. -/
def hashes : Text := List.replicate 40 '#'

/-- `FlashScript.__init__`. -/
def FlashScript.init (flinfo : FlashInfo) (spiNand : Text) : FlashScript :=
  { flinfo
    spiNand
    script := ifVerbose ++ [.cmd (.assign "failedmsg".toList "[failed]".toList), .newline]
      ++ [.reserved .else, .newline]
      ++ [.cmd (.assign "failedmsg".toList (hashes ++ " Failed".toList)), .newline]
      ++ [.reserved .fi, .newline] }

/-- A message between apostrophes. -/
def quoted (msg : Text) : Text := ['\''] ++ msg ++ ['\'']

/-- `%-40.40s`. -/
def pad40 (msg : Text) : Text := msg.take 40 ++ List.replicate (40 - msg.length) ' '

/-- `start_activity`. -/
def FlashScript.startActivity (s : FlashScript) (activity : Text) : FlashScript :=
  let s := s.add ifVerbose
  let s := s.echo (quoted (pad40 activity)) false false
  let s := s.add [.reserved .else, .newline]
  let s := s.echo (quoted (hashes ++ [' '] ++ activity ++ " Started".toList)) true true
  { s.add [.reserved .fi, .newline] with activity }

/-- `finish_activity`. -/
def FlashScript.finishActivity (s : FlashScript) : FlashScript :=
  let s := s.add ifVerbose
  let s := s.echo (quoted "[ done ]".toList) true false
  let s := s.redirect "serial".toList
  let s := s.add [.reserved .else, .newline]
  let s := s.echo (quoted (hashes ++ [' '] ++ s.activity ++ " Done".toList)) true true
  s.add [.reserved .fi, .newline]

/-- `imxtract`. -/
def FlashScript.imxtract (s : FlashScript) (part : Text) : FlashScript :=
  s.append [.cmd (.imxtract part)]

/-- `start_if`; `append` adds a newline of its own. -/
def FlashScript.startIf (s : FlashScript) (var value : Text) : FlashScript :=
  s.appendPlain (ifTest ('$' :: var) value)

/-- `end_if`. -/
def FlashScript.endIf (s : FlashScript) : FlashScript :=
  s.appendPlain [.reserved .fi, .newline]

/-- `end`. -/
def FlashScript.end (s : FlashScript) : FlashScript :=
  let s := s.echo "Erasing events_log partition ... ".toList true false
  let s := s.appendPlain [.cmd .sfProbe, .sep .seq, .cmd .sfEraseEvents]
  let s := s.echo "[ done ]".toList true false
  s.appendPlain [.cmd (.exit 0), .newline]

/-- The next multiple of `roundto`. -/
def nextMultiple (value : ℤ) (roundto : ℕ) : ℤ := (value + roundto - 1) / roundto * roundto

/-- `roundup`. -/
def roundup (value : ℤ) (roundto : ℕ) : Except Text ℤ :=
  if roundto = 0 then .error "integer division or modulo by zero".toList
  else .ok (nextMultiple value roundto)

/-- The device of `probe` and `nand_write`. -/
def FlashScript.device (s : FlashScript) : ℕ := if s.spiNand = "true".toList then 1 else 0

/-- `probe`. -/
def FlashScript.probe (s : FlashScript) : FlashScript :=
  match s.flinfo.type with
  | .nand => s.append [.cmd (.nandDevice s.device)]
  | .nor | .norplusnand => s.append [.cmd .sfProbe]
  | .emmc => s

/-- `erase`. -/
def FlashScript.erase (s : FlashScript) (offset size : ℤ) : Except Text FlashScript :=
  match s.flinfo.type with
  | .nand => do
    let size ← roundup size s.flinfo.blocksize
    return s.append [.cmd (.nandErase offset size)]
  | .nor | .norplusnand => do
    let size ← roundup size s.flinfo.blocksize
    return s.append [.cmd (.sfErase offset size)]
  | .emmc => .ok (s.append [.cmd (.mmcErase offset size)])

/-- `write`.  For eMMC the number of blocks comes from `/` and is a float, which `%x` does
not take. -/
def FlashScript.write (s : FlashScript) (offset size : ℤ) (yaffs : Bool) :
    Except Text FlashScript :=
  if 0 < size then
    match s.flinfo.type with
    | .nand =>
      if yaffs then .ok (s.append [.cmd (.nandWriteYaffs offset size)])
      else do
        let size ← roundup size s.flinfo.pagesize
        return s.append [.cmd (.nandWrite offset size)]
    | .nor | .norplusnand => .ok (s.append [.cmd (.sfWrite offset size)])
    | .emmc => .error "%x format: an integer is required, not float".toList
  else .ok s

/-- `nand_write`, which only `NorScript` has. -/
def FlashScript.nandWrite (s : FlashScript) (offset partSize imgSize : ℤ) :
    Except Text FlashScript :=
  match s.flinfo.type with
  | .nor | .norplusnand =>
    let s := s.append [.cmd (.nandDevice s.device), .sep .and, .cmd (.nandErase offset partSize)]
    .ok (if 0 < imgSize then s.append [.cmd (.nandWrite offset imgSize)] else s)
  | .nand | .emmc => .error "no attribute 'nand_write'".toList

/-! ### What the methods add -/

/-- Tests, variables, messages and `exit`. -/
def Command.isChatter : Command → Bool
  | .test _ _ | .assign _ _ | .setenvStdout _ | .echo _ | .exit _ => true
  | _ => false

/-- The erase and write commands of the sections; the event log is none of them. -/
def Command.isFlash : Command → Bool
  | .nandErase _ _ | .nandWrite _ _ | .nandWriteYaffs _ _ | .sfErase _ _ | .sfWrite _ _
  | .mmcErase _ _ => true
  | _ => false

theorem Command.not_isChatter {c : Command} (h : c.isFlash = true) : c.isChatter = false := by
  cases c <;> first | rfl | cases h

/-- The command of a token. -/
def command? : Token Command → Option Command
  | .cmd c => some c
  | _ => none

/-- The commands of a script but for the chatter. -/
def essential (toks : List (Token Command)) : List Command :=
  (toks.filterMap command?).filter fun c => !c.isChatter

theorem essential_append (toks toks' : List (Token Command)) :
    essential (toks ++ toks') = essential toks ++ essential toks' := by
  rw [essential, List.filterMap_append, List.filter_append]
  rfl

/-- `t` is `s` with tokens behind it, of which `cs` is essential. -/
def Extends (s t : FlashScript) (cs : List Command) : Prop :=
  (∃ toks, t.script = s.script ++ toks ∧ essential toks = cs) ∧
    t.flinfo = s.flinfo ∧ t.spiNand = s.spiNand

variable {s t u : FlashScript} {cs ds : List Command}

theorem Extends.refl (s : FlashScript) : Extends s s [] := ⟨⟨[], by simp, rfl⟩, rfl, rfl⟩

theorem Extends.trans (h : Extends s t cs) (h' : Extends t u ds) : Extends s u (cs ++ ds) := by
  obtain ⟨⟨toks, ht, hcs⟩, hfl, hspi⟩ := h
  obtain ⟨⟨toks', hu, hds⟩, hfl', hspi'⟩ := h'
  refine ⟨⟨toks ++ toks', ?_, ?_⟩, hfl'.trans hfl, hspi'.trans hspi⟩
  · rw [hu, ht, List.append_assoc]
  · rw [essential_append, hcs, hds]

theorem extends_add (s : FlashScript) (toks : List (Token Command)) :
    Extends s (s.add toks) (essential toks) := ⟨⟨toks, rfl, rfl⟩, rfl, rfl⟩

theorem extends_append (s : FlashScript) (cmd : List (Token Command)) :
    Extends s (s.append cmd) (essential cmd) := by
  have h := extends_add s (cmd ++ onFailure ++ [.newline])
  rw [essential_append, essential_append] at h
  have hchatter : essential onFailure = [] ∧ essential [.newline] = [] := by decide
  rwa [hchatter.1, hchatter.2, List.append_nil, List.append_nil] at h

theorem extends_appendPlain (s : FlashScript) (cmd : List (Token Command)) :
    Extends s (s.appendPlain cmd) (essential cmd) := by
  have h := extends_add s (cmd ++ [.newline])
  rw [essential_append] at h
  have hchatter : essential [.newline] = [] := by decide
  rwa [hchatter, List.append_nil] at h

theorem extends_redirect (s : FlashScript) (dev : Text) : Extends s (s.redirect dev) [] := by
  rw [FlashScript.redirect]
  split
  · exact Extends.refl s
  · exact extends_appendPlain s [.cmd (.setenvStdout dev)]

theorem extends_echo (s : FlashScript) (msg : Text) (nl verbose : Bool) :
    Extends s (s.echo msg nl verbose) [] := by
  cases verbose with
  | true => exact extends_appendPlain s [.cmd (.echo _)]
  | false =>
    have hmsg := extends_appendPlain (s.redirect "serial".toList)
      [.cmd (.echo (if nl then msg else "\\\\c".toList ++ msg))]
    exact ((extends_redirect s _).trans hmsg).trans (extends_redirect _ _)

theorem extends_startActivity (s : FlashScript) (activity : Text) :
    Extends s (s.startActivity activity) [] :=
  ((((extends_add s ifVerbose).trans (extends_echo _ _ _ _)).trans
    (extends_add _ [.reserved .else, .newline])).trans (extends_echo _ _ _ _)).trans
    (extends_add _ [.reserved .fi, .newline])

theorem extends_finishActivity (s : FlashScript) : Extends s s.finishActivity [] :=
  (((((extends_add s ifVerbose).trans (extends_echo _ _ _ _)).trans (extends_redirect _ _)).trans
    (extends_add _ [.reserved .else, .newline])).trans (extends_echo _ _ _ _)).trans
    (extends_add _ [.reserved .fi, .newline])

theorem extends_imxtract (s : FlashScript) (part : Text) :
    Extends s (s.imxtract part) [.imxtract part] := extends_append s [.cmd (.imxtract part)]

theorem extends_startIf (s : FlashScript) (var value : Text) :
    Extends s (s.startIf var value) [] := extends_appendPlain s _

theorem extends_endIf (s : FlashScript) : Extends s s.endIf [] := extends_appendPlain s _

/-- What `erase` writes. -/
def eraseCommand (fl : FlashInfo) (offset size : ℤ) : Command :=
  match fl.type with
  | .nand => .nandErase offset (nextMultiple size fl.blocksize)
  | .nor | .norplusnand => .sfErase offset (nextMultiple size fl.blocksize)
  | .emmc => .mmcErase offset size

/-- What `write` writes. -/
def writeCommands (fl : FlashInfo) (offset size : ℤ) (yaffs : Bool) : List Command :=
  if 0 < size then
    match fl.type with
    | .nand =>
      if yaffs then [.nandWriteYaffs offset size]
      else [.nandWrite offset (nextMultiple size fl.pagesize)]
    | .nor | .norplusnand => [.sfWrite offset size]
    | .emmc => []
  else []

theorem isFlash_eraseCommand (fl : FlashInfo) (offset size : ℤ) :
    (eraseCommand fl offset size).isFlash = true := by
  rw [eraseCommand]
  split <;> rfl

theorem isFlash_writeCommands {fl : FlashInfo} {offset size : ℤ} {yaffs : Bool} :
    ∀ c ∈ writeCommands fl offset size yaffs, c.isFlash = true := by
  intro c hc
  rw [writeCommands] at hc
  by_cases hsize : 0 < size
  · rw [if_pos hsize] at hc
    cases htype : fl.type with
    | nand =>
      rw [htype] at hc
      cases yaffs with
      | true =>
        obtain rfl := List.mem_singleton.mp hc
        rfl
      | false =>
        obtain rfl := List.mem_singleton.mp hc
        rfl
    | nor | norplusnand =>
      rw [htype] at hc
      obtain rfl := List.mem_singleton.mp hc
      rfl
    | emmc =>
      rw [htype] at hc
      cases hc
  · rw [if_neg hsize] at hc
    cases hc

/-- What `nand_write` writes. -/
def nandWriteCommands (device : ℕ) (offset partSize imgSize : ℤ) : List Command :=
  [.nandDevice device, .nandErase offset partSize]
    ++ if 0 < imgSize then [.nandWrite offset imgSize] else []

theorem roundup_eq_ok {value size : ℤ} {roundto : ℕ} :
    roundup value roundto = .ok size ↔ roundto ≠ 0 ∧ size = nextMultiple value roundto := by
  rw [roundup]
  by_cases h : roundto = 0
  · simp [h]
  · simp [h, eq_comm]

/-- The commands one after the other, none of which must fail. -/
def FlashScript.appendAll (s : FlashScript) (cs : List Command) : FlashScript :=
  cs.foldl (fun s c => s.append [.cmd c]) s

theorem erase_eq_ok {offset size : ℤ} (h : s.erase offset size = .ok t) :
    t = s.append [.cmd (eraseCommand s.flinfo offset size)] ∧
      (s.flinfo.type ≠ .emmc → s.flinfo.blocksize ≠ 0) := by
  rw [FlashScript.erase] at h
  rw [eraseCommand]
  cases htype : s.flinfo.type with
  | nand | nor | norplusnand =>
    rw [htype] at h
    obtain ⟨size', hsize, h⟩ := bind_eq_ok.mp h
    obtain ⟨hblock, rfl⟩ := roundup_eq_ok.mp hsize
    cases h
    exact ⟨rfl, fun _ => hblock⟩
  | emmc =>
    rw [htype] at h
    cases h
    exact ⟨rfl, fun h => absurd rfl h⟩

theorem write_eq_ok {offset size : ℤ} {yaffs : Bool} (h : s.write offset size yaffs = .ok t) :
    t = s.appendAll (writeCommands s.flinfo offset size yaffs) := by
  rw [FlashScript.write] at h
  rw [writeCommands]
  by_cases hsize : 0 < size
  · rw [if_pos hsize] at h ⊢
    cases htype : s.flinfo.type with
    | nand =>
      rw [htype] at h
      dsimp only at h ⊢
      cases yaffs with
      | true =>
        cases h
        rfl
      | false =>
        obtain ⟨size', hround, h⟩ := bind_eq_ok.mp h
        obtain ⟨-, rfl⟩ := roundup_eq_ok.mp hround
        cases h
        rfl
    | nor | norplusnand =>
      rw [htype] at h
      cases h
      rfl
    | emmc =>
      rw [htype] at h
      cases h
  · rw [if_neg hsize] at h ⊢
    cases h
    rfl

theorem nandWrite_eq_ok {offset partSize imgSize : ℤ}
    (h : s.nandWrite offset partSize imgSize = .ok t) :
    t = (s.append [.cmd (.nandDevice s.device), .sep .and,
        .cmd (.nandErase offset partSize)]).appendAll
          (if 0 < imgSize then [.nandWrite offset imgSize] else []) ∧
      (s.flinfo.type = .nor ∨ s.flinfo.type = .norplusnand) := by
  rw [FlashScript.nandWrite] at h
  cases htype : s.flinfo.type with
  | nor | norplusnand =>
    rw [htype] at h
    cases h
    refine ⟨?_, by simp⟩
    split <;> rfl
  | nand | emmc =>
    rw [htype] at h
    cases h

theorem extends_appendAll (s : FlashScript) {cs : List Command}
    (hcs : ∀ c ∈ cs, c.isChatter = false) : Extends s (s.appendAll cs) cs := by
  induction cs generalizing s with
  | nil => exact Extends.refl s
  | cons c cs ih =>
    have hone : essential [.cmd c] = [c] := by
      simp [essential, command?, hcs c List.mem_cons_self]
    have hc := extends_append s [.cmd c]
    rw [hone] at hc
    exact hc.trans (ih _ fun d hd => hcs d (List.mem_cons_of_mem c hd))

theorem extends_erase {offset size : ℤ} (h : s.erase offset size = .ok t) :
    Extends s t [eraseCommand s.flinfo offset size] ∧
      (s.flinfo.type ≠ .emmc → s.flinfo.blocksize ≠ 0) := by
  obtain ⟨rfl, hblock⟩ := erase_eq_ok h
  have hall : ∀ c ∈ [eraseCommand s.flinfo offset size], c.isChatter = false := by
    intro c hc
    obtain rfl := List.mem_singleton.mp hc
    exact Command.not_isChatter (isFlash_eraseCommand _ _ _)
  exact ⟨extends_appendAll s hall, hblock⟩

theorem extends_write {offset size : ℤ} {yaffs : Bool} (h : s.write offset size yaffs = .ok t) :
    Extends s t (writeCommands s.flinfo offset size yaffs) := by
  rw [write_eq_ok h]
  exact extends_appendAll s fun c hc => Command.not_isChatter (isFlash_writeCommands c hc)

theorem extends_nandWrite {offset partSize imgSize : ℤ}
    (h : s.nandWrite offset partSize imgSize = .ok t) :
    Extends s t (nandWriteCommands s.device offset partSize imgSize) ∧
      (s.flinfo.type = .nor ∨ s.flinfo.type = .norplusnand) := by
  obtain ⟨rfl, htype⟩ := nandWrite_eq_ok h
  have herase := extends_append s
    [.cmd (.nandDevice s.device), .sep .and, .cmd (.nandErase offset partSize)]
  refine ⟨herase.trans (extends_appendAll _ fun c hc => ?_), htype⟩
  split at hc
  · obtain rfl := List.mem_singleton.mp hc
    rfl
  · cases hc

theorem extends_end (s : FlashScript) : Extends s s.end [.sfProbe, .sfEraseEvents] :=
  (((extends_echo s _ _ _).trans
    (extends_appendPlain _ [.cmd .sfProbe, .sep .seq, .cmd .sfEraseEvents])).trans
    (extends_echo _ _ _ _)).trans (extends_appendPlain _ [.cmd (.exit 0), .newline])

end Pack
