/-
The command line of an upgrade (`do_http_upgrade` in `net/httpd.c`).

The upgrade is not done by calls: `do_http_upgrade` prints a command line and hands it
to `run_command`.  `upgradeCommand` is that line as text, and the lemmas of this file say
what the interpreter reads in it, for every size that is printed into it.

* `doHttpUpgrade` — over the commands and the environment of an arbitrary board;
* `doHttpUpgrade_uboot`, `doHttpUpgrade_art`, `doHttpUpgrade_firmware` — the commands
  that are run, as a line of three;
* `doHttpUpgrade_code` — the code of an upgrade is 0 or 1, or -1 for an unknown type.
-/
import OpenMptcpRouter.Httpd.State
import OpenMptcpRouter.Hush.Lexer
import OpenMptcpRouter.Lib.Digits

namespace Upgrade

open Hush Digits Httpd

/-- `WEBFAILSAFE_UPGRADE_TYPE_FIRMWARE`. -/
def typeFirmware : ℤ := 0

/-- `WEBFAILSAFE_UPGRADE_TYPE_UBOOT`. -/
def typeUboot : ℤ := 1

/-- `WEBFAILSAFE_UPGRADE_TYPE_ART`. -/
def typeArt : ℤ := 2

/-- `CONFIG_UBOOT_START`. -/
def ubootStart : ℕ := 0xf0000

/-- `0x%x`. -/
def hex (n : ℕ) : Text := "0x".toList ++ Nat.toDigits 16 n

/-- The line printed for an U-Boot image, less the size at its end. -/
def ubootFormat : Text :=
  "sf probe && sf erase ".toList ++ hex loadaddr ++ [' '] ++ hex ubootStart
    ++ " && sf write ".toList ++ hex ubootSize ++ [' '] ++ hex ubootStart ++ " 0x".toList

/-- The line printed for a firmware image. -/
def firmwareCommand : Text :=
  "sf probe && imgaddr=".toList ++ hex loadaddr ++ " && source $imgaddr:script".toList

/-- The line printed for an ART image. -/
def artCommand : Text :=
  "sf probe && sf erase 0x170000 0x10000 && sf write ".toList ++ hex loadaddr
    ++ " 0x170000 0x10000".toList

/-- What `do_http_upgrade` prints into `cmd`. -/
def upgradeCommand (size : ℕ) (upgradeType : ℤ) : Option Text :=
  if upgradeType = typeUboot then some (ubootFormat ++ Nat.toDigits 16 size)
  else if upgradeType = typeFirmware then some firmwareCommand
  else if upgradeType = typeArt then some artCommand
  else none

section Run

variable {σ : Type} (getenv : σ → Text → Option Text)
  (cmdProcess : Shell σ → List Text → Shell σ × ℤ)

/-- `do_http_upgrade`. -/
def doHttpUpgrade (s : Shell σ) (size : ℕ) (upgradeType : ℤ) : Shell σ × ℤ :=
  match upgradeCommand size upgradeType with
  | some cmd => runCommand getenv cmdProcess s cmd
  | none => (s, -1)

end Run

/-! ### What the interpreter reads -/

/-- The words of a command line without quotes. -/
def words (s : String) : List Text := s.toList.splitOn ' '

/-- `sf probe`. -/
def sfProbe : Simple := { argv := words "sf probe" }

/-- Three commands joined by `&&`. -/
def andLine (c₁ c₂ c₃ : Simple) : Stmt Simple := .line [(c₁, .and), (c₂, .and)] c₃

theorem isPlain_hexDigit {c : Char} {n : ℕ} (hc : c ∈ Nat.toDigits 16 n) : IsPlain c := by
  have hplain : ∀ d < 16, IsPlain d.digitChar := by decide
  obtain ⟨d, hd, rfl⟩ := mem_toDigits (by decide) n hc
  exact hplain d hd

/-- What has been read in front of the size. -/
def ubootRead : Lex :=
  { toks := [.cmd sfProbe, .sep .and, .cmd { argv := words "sf erase 0x81000000 0xf0000" }, .sep .and]
    cmd := { argv := words "sf write 0x80000 0xf0000" }
    word := "0x".toList }

theorem lex_ubootFormat : ubootFormat.foldl Lex.step {} = ubootRead := by
  decide +kernel

/-- The command line of an U-Boot upgrade, for every size. -/
theorem lexLine_uboot (size : ℕ) :
    lexLine (ubootFormat ++ Nat.toDigits 16 size) false =
      (andLine sfProbe { argv := words "sf erase 0x81000000 0xf0000" }
        { argv := words "sf write 0x80000 0xf0000" ++ [hex size] }).tokens := by
  have hread : (ubootFormat ++ Nat.toDigits 16 size).foldl Lex.step {}
      = { ubootRead with word := hex size } := by
    rw [List.foldl_append, lex_ubootFormat, lex_word rfl rfl fun c hc => isPlain_hexDigit hc]
    rfl
  have hstrip : strip (hex size) = hex size := by
    refine strip_of_isPlain fun c hc => ?_
    rcases List.mem_append.mp hc with hc | hc
    · rcases List.mem_pair.mp (show c ∈ ['0', 'x'] from hc) with rfl | rfl <;> decide
    · exact isPlain_hexDigit hc
  rw [lexLine, List.foldl_append, hread]
  conv_rhs => rw [← hstrip]
  rfl

theorem lexLine_art :
    lexLine artCommand false =
      (andLine sfProbe { argv := words "sf erase 0x170000 0x10000" }
        { argv := words "sf write 0x81000000 0x170000 0x10000" }).tokens := by
  decide +kernel

/-- `source $imgaddr:script`. -/
def sourceScript : Simple :=
  { argv := ["source".toList,
      specialVarSymbol :: "imgaddr".toList ++ specialVarSymbol :: ":script".toList]
    sp := 1 }

theorem lexLine_firmware :
    lexLine firmwareCommand false =
      (andLine sfProbe { argv := ["imgaddr=0x81000000".toList] } sourceScript).tokens := by
  decide

section Run

variable {σ : Type} {getenv : σ → Text → Option Text}
  {cmdProcess : Shell σ → List Text → Shell σ × ℤ} {s : Shell σ} {size : ℕ} {upgradeType : ℤ}

/-- A line that reads as a statement does what the statement does. -/
theorem runCommand_stmt {text : Text} {stmt : Stmt Simple} (hne : text ≠ [])
    (h : lexLine text false = stmt.tokens) :
    (runCommand getenv cmdProcess s text).1 = (stmt.run (runSimple getenv cmdProcess) s).1 := by
  rw [runCommand, if_neg hne, h, runString_once]

/-- A text that ends in a non-empty string is not empty. -/
theorem append_toList_ne_nil (front : Text) {t : String} (h : t ≠ "") : front ++ t.toList ≠ [] :=
  List.append_ne_nil_of_right_ne_nil front (mt String.toList_eq_nil_iff.mp h)

theorem doHttpUpgrade_uboot :
    (doHttpUpgrade getenv cmdProcess s size typeUboot).1 =
      ((andLine sfProbe { argv := words "sf erase 0x81000000 0xf0000" }
        { argv := words "sf write 0x80000 0xf0000" ++ [hex size] }).run
        (runSimple getenv cmdProcess) s).1 := by
  have hcmd : upgradeCommand size typeUboot = some (ubootFormat ++ Nat.toDigits 16 size) :=
    if_pos rfl
  have hne : ubootFormat ++ Nat.toDigits 16 size ≠ [] :=
    List.append_ne_nil_of_left_ne_nil (append_toList_ne_nil _ (by decide)) _
  rw [doHttpUpgrade, hcmd]
  exact runCommand_stmt hne (lexLine_uboot size)

theorem doHttpUpgrade_art :
    (doHttpUpgrade getenv cmdProcess s size typeArt).1 =
      ((andLine sfProbe { argv := words "sf erase 0x170000 0x10000" }
        { argv := words "sf write 0x81000000 0x170000 0x10000" }).run
        (runSimple getenv cmdProcess) s).1 := by
  have hcmd : upgradeCommand size typeArt = some artCommand := by
    rw [upgradeCommand, if_neg (by decide), if_neg (by decide), if_pos rfl]
  have hne : artCommand ≠ [] := append_toList_ne_nil _ (by decide)
  rw [doHttpUpgrade, hcmd]
  exact runCommand_stmt hne lexLine_art

theorem doHttpUpgrade_firmware :
    (doHttpUpgrade getenv cmdProcess s size typeFirmware).1 =
      ((andLine sfProbe { argv := ["imgaddr=0x81000000".toList] } sourceScript).run
        (runSimple getenv cmdProcess) s).1 := by
  have hcmd : upgradeCommand size typeFirmware = some firmwareCommand := by
    rw [upgradeCommand, if_neg (by decide), if_pos rfl]
  have hne : firmwareCommand ≠ [] := append_toList_ne_nil _ (by decide)
  rw [doHttpUpgrade, hcmd]
  exact runCommand_stmt hne lexLine_firmware

/-- The code of an upgrade says only whether its type is known. -/
theorem doHttpUpgrade_code :
    0 ≤ (doHttpUpgrade getenv cmdProcess s size upgradeType).2 ↔
      upgradeType = typeUboot ∨ upgradeType = typeFirmware ∨ upgradeType = typeArt := by
  have hrun : ∀ text, 0 ≤ (runCommand getenv cmdProcess s text).2 := by
    intro text
    rw [runCommand]
    split
    · simp
    · rcases runString_code (runSimple getenv cmdProcess) true s
        (parse {} [] (lexLine text false)) with h | h
      · simp [h]
      · simp [h]
  rw [doHttpUpgrade, upgradeCommand]
  split_ifs with h₁ h₂ h₃
  · simp [h₁, hrun]
  · simp [h₂, hrun]
  · simp [h₃, hrun]
  · simp [h₁, h₂, h₃]

end Run

end Upgrade
