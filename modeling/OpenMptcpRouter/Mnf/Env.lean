/-
The manufacturing fields in the boot environment (`ipq40xx_cdp.c`).

`board_late_init` copies two fields into environment variables, the device tree and the
LED wiring depend on them.  It does not use the text form of the fields: it reads the
fixed length of each and takes it when every byte passes a check, padding included.

* `get_prints` — `mnf get` prints the value that was set;
* `bootAgrees_iff` — **the boot environment agrees exactly for values that fill their
  field**: the padding of a shorter one is `0xff`, which no check passes, and the variable
  silently keeps what it had.
-/
import OpenMptcpRouter.Mnf.Codec
import OpenMptcpRouter.Mnf.Store

namespace Mnf

open CString Fallible Regions

/-- The environment: the value of every variable that is set. -/
abbrev Env := Text → Option Text

/-- `setenv`; the empty value deletes the variable. -/
def setenv (env : Env) (name value : Text) : Env :=
  Function.update env name (if value = [] then none else some value)

/-- `setenv_addr`: in hex. -/
def setenvAddr (env : Env) (name : Text) (addr : ℕ) : Env :=
  setenv env name ((Nat.toDigits 16 addr).map fun c => UInt8.ofNat c.toNat)

/-- `is_it_ascii`. -/
def isItAscii (c : UInt8) : Bool := c ≤ 0x7f

/-- What the board finds out about itself at boot. -/
structure Boot where
  /-- The NOR chip is there and can be read. -/
  norReadable : Bool
  machid : ℕ
  flashType : ℕ

/-- `mnf_to_env_var`. -/
def mnfToEnvVar (boot : Boot) (flash : ℕ → UInt8) (mnfOffset mnfLen : ℕ) (valid : UInt8 → Bool)
    (envName : Text) (env : Env) : Env :=
  let buff := window flash (0x2F0000 + mnfOffset) mnfLen
  if !boot.norReadable then env
  else if buff.any fun c => !valid c then env
  else setenv env envName (cstr buff)

/-- `board_late_init`, as far as it sets variables. -/
def boardLateInit (boot : Boot) (flash : ℕ → UInt8) (env : Env) : Env :=
  let env := setenvAddr env (ascii "flash_type") boot.flashType
  let env := if boot.machid ≠ 0 then setenvAddr env (ascii "machid") boot.machid else env
  -- do the same validation as libmnfinfo does
  let env := mnfToEnvVar boot flash 0x10 12 isItAscii (ascii "mnf_name") env
  mnfToEnvVar boot flash 0x50 4 isDigit (ascii "mnf_hwver") env

/-- The two fields that are copied. -/
inductive Copied
  | name | hwver
  deriving DecidableEq, Repr

/-- The name the field has for `mnf`. -/
def Copied.arg : Copied → CStr
  | .name => .ofText (ascii "name") zero_notMem_name
  | .hwver => .ofText (ascii "hwver")

/-- The variable it is copied to. -/
def Copied.var : Copied → Text
  | .name => ascii "mnf_name"
  | .hwver => ascii "mnf_hwver"

/-- Its entry in the table. -/
def Copied.field : Copied → MnfField
  | .name => ⟨110, ascii "name", ascii "Model name", 0x10, 12, .name, false, false⟩
  | .hwver => ⟨72, ascii "hwver", ascii "Hardware version", 0x50, 4, .num, false, false⟩

/-- The check the boot makes of every byte. -/
def Copied.valid : Copied → UInt8 → Bool
  | .name => isItAscii
  | .hwver => isDigit

/-- The values the field is for. -/
structure Copied.Admits (f : Copied) (v : Text) : Prop where
  ne_nil : v ≠ []
  valid : ∀ c ∈ v, f.valid c = true
  length_le : v.length ≤ f.field.length

/-- `mnf set f v flags`. -/
def setCmd (f : Copied) (v : CStr) (flags : List CStr) : List CStr :=
  .ofText (ascii "set") zero_notMem_set :: f.arg :: v :: flags

/-- `mnf get f`. -/
def getCmd (f : Copied) : List CStr := [.ofText (ascii "get"), f.arg]

/-- Every successful `mnf get f` prints `v`. -/
def GetPrints (s : Board) (f : Copied) (v : Text) : Prop :=
  ∀ hw : Hw, (step s (hw, getCmd f)).2 = true →
    (step s (hw, getCmd f)).1.console = s.console ++ [v]

/-- After the next boot the variable of `f` is `v`, whatever it was. -/
def BootSets (boot : Boot) (s : Board) (f : Copied) (v : Text) : Prop :=
  ∀ env : Env, boardLateInit boot s.flash env f.var = some v

section Values

variable {f : Copied} {v : CStr}

/-- A C string is seen to its end. -/
theorem cstr_text (v : CStr) : cstr v.text = v.text := by
  rw [cstr, List.takeWhile_eq_self_iff]
  exact fun c hc => by simpa using fun h0 : c = 0 => v.nulFree (h0 ▸ hc)

theorem fieldNamed_arg (f : Copied) : fieldNamed f.arg.text = some f.field := by
  cases f <;> decide

theorem isItAscii_of_valid {c : UInt8} (h : f.valid c = true) : isItAscii c = true := by
  cases f with
  | name => exact h
  | hwver =>
    simp only [Copied.valid, isDigit, Bool.and_eq_true, decide_eq_true_eq] at h
    simp only [isItAscii, decide_eq_true_eq]
    exact UInt8.le_trans h.2 (by decide)

theorem not_valid_pad (f : Copied) : f.valid 0xff = false := by cases f <;> decide

/-- A value is stored as it is, padded with `0xff`. -/
theorem stored (f : Copied) (v : CStr) (h : v.text.length ≤ f.field.length) :
    mnfStrToField f.field v =
      (false, v.text ++ List.replicate (f.field.length - v.text.length) 0xff) := by
  have hflags : f.field.binary = false ∧ f.field.reversed = false := by cases f <;> decide
  simp only [mnfStrToField, hflags, applyMnfOrder, Bool.false_eq_true, if_false,
    List.take_of_length_le h]

/-- What is printed of a stored value is the value. -/
theorem shown (hv : f.Admits v.text) :
    (cstr (mnfFieldToStr f.field (mnfStrToField f.field v).2)).take 255 = v.text := by
  have hbin : f.field.binary = false := by cases f <;> decide
  have hlen : v.text.length ≤ 255 :=
    hv.length_le.trans (by cases f <;> decide)
  have hascii : ∀ c ∈ v.text, c < 0x80 := fun c hc => by
    have hc7 := isItAscii_of_valid (hv.valid c hc)
    simp only [isItAscii, decide_eq_true_eq, UInt8.le_iff_toNat_le] at hc7
    exact UInt8.lt_iff_toNat_lt.mpr (Nat.lt_succ_of_le hc7)
  rw [shown_text hbin v hascii, List.take_of_length_le hv.length_le, cstr_text,
    List.take_of_length_le hlen]

end Values

section Commands

variable {f : Copied} {v : CStr} {flags : List CStr} {s : Board} {hw : Hw} {F : ℕ → UInt8}

theorem writes_of_set (h : (step s (hw, setCmd f v flags)).2 = true) :
    Writes (hw, setCmd f v flags) := by
  have hset : Triple (fun _ => True) (doSet hw (f.arg :: v :: flags))
      (fun _ _ => hw.eraseFails = none ∧ hw.writeFails = none) (fun _ => True) := by
    refine triple_bind (triple_trivial _) fun flags' => triple_bind (triple_trivial _) fun field => ?_
    refine triple_ite (fun _ => triple_fail fun _ _ _ => trivial) fun _ => ?_
    refine triple_bind (triple_trivial _) fun _ => triple_bind (triple_trivial _) fun _ => ?_
    exact triple_finish_writes
  obtain ⟨-, hwrites⟩ := hset.of_isOk (s := s) trivial h
  exact hwrites

/-- After a successful `mnf set`, the field holds the value and its padding. -/
theorem content_of_set (h : (step s (hw, setCmd f v flags)).2 = true)
    (hlen : v.text.length ≤ f.field.length) :
    content (step s (hw, setCmd f v flags)).1.flash f.field =
      v.text ++ List.replicate (f.field.length - v.text.length) 0xff := by
  have hstored : (v.text ++ List.replicate (f.field.length - v.text.length) (0xff : UInt8)).length =
      f.field.length := by
    rw [List.length_append, List.length_replicate]
    omega
  have hupdates : updates hw (content s.flash) (setCmd f v flags) =
      [(f.field, v.text ++ List.replicate (f.field.length - v.text.length) 0xff)] := by
    change setUpdates (f.arg :: v :: flags) = _
    rw [setUpdates, fieldNamed_arg, Option.toList_some, List.map_singleton, stored f v hlen]
  let t : Tracked := ⟨s, content s.flash⟩
  rcases step_cases (t := t) (writes_of_set h) with ⟨-, hflash⟩ | ⟨herr, -⟩
  · rw [hflash, hupdates]
    change window (put s.flash f.field.start _) f.field.start f.field.length = _
    have hself := window_put_self s.flash f.field.start
      (v.text ++ List.replicate (f.field.length - v.text.length) 0xff)
    rwa [hstored] at hself
  · exact absurd (h.symm.trans herr) (by decide)

/-- `mnf get` prints the text of the field and changes nothing it reads. -/
theorem triple_get (c : List Text) :
    Triple (fun s => s.flash = F ∧ s.console = c) (doGet hw [f.arg])
      (fun _ s => s.console =
        c ++ [(cstr (mnfFieldToStr f.field (content F f.field))).take 255]) (fun _ => True) := by
  have hfield : mnfCmdGetField f.arg = pure f.field := by
    rw [mnfCmdGetField, fieldNamed_arg]
  rw [doGet, hfield, pure_bind]
  have hread : Triple (fun s => s.flash = F ∧ s.console = c) (mnfCmdReadField hw f.field)
      (fun old s => old = content F f.field ∧ s.flash = F ∧ s.console = c) (fun _ => True) :=
    triple_orErr (fun _ _ _ => trivial) (triple_mnfFlashRead (fun _ hs => hs.1) fun _ hs => hs)
  refine triple_bind hread fun old => triple_fact fun hold => ?_
  rw [hold]
  refine triple_modify fun s hs => ?_
  rw [hs.2]

/-- **`mnf get` prints the value that was set**, whatever its length. -/
theorem get_prints (h : (step s (hw, setCmd f v flags)).2 = true) (hv : f.Admits v.text) :
    GetPrints (step s (hw, setCmd f v flags)).1 f v.text := by
  intro hw' hget
  have hcontent := content_of_set h hv.length_le
  generalize (step s (hw, setCmd f v flags)).1 = s' at hget hcontent ⊢
  have hget' : Triple (fun s => s.flash = s'.flash ∧ s.console = s'.console) (doGet hw' [f.arg])
      (fun _ s => s.console =
        s'.console ++ [(cstr (mnfFieldToStr f.field (content s'.flash f.field))).take 255])
      fun _ => True := triple_get s'.console
  have hentry : mnfCmdEntry hw' (getCmd f) = doGet hw' [f.arg] := rfl
  rw [step, hentry] at hget ⊢
  obtain ⟨_, hprinted⟩ := hget'.of_isOk ⟨rfl, rfl⟩ hget
  have hshown := shown hv
  rw [stored f v hv.length_le] at hshown
  rwa [hcontent, hshown] at hprinted

end Commands

section LateInit

variable {f : Copied} {boot : Boot} {flash : ℕ → UInt8} {env : Env} {v : Text}

theorem setenv_of_ne {name name' value : Text} (h : name' ≠ name) :
    setenv env name value name' = env name' := Function.update_of_ne h ..

theorem mnfToEnvVar_of_ne {offset len : ℕ} {valid : UInt8 → Bool} {name name' : Text}
    (h : name' ≠ name) : mnfToEnvVar boot flash offset len valid name env name' = env name' := by
  rw [mnfToEnvVar]
  split
  · rfl
  · split
    · rfl
    · exact setenv_of_ne h

/-- The call of `mnf_to_env_var` made for the field. -/
theorem mnfToEnvVar_eq (f : Copied) :
    mnfToEnvVar boot flash f.field.offset f.field.length f.valid f.var env f.var =
      if boot.norReadable && (content flash f.field).all f.valid then
        (if cstr (content flash f.field) = [] then none else some (cstr (content flash f.field)))
      else env f.var := by
  have hread : window flash (0x2F0000 + f.field.offset) f.field.length = content flash f.field := rfl
  rw [mnfToEnvVar, hread]
  have hany : ((content flash f.field).any fun c => !f.valid c) =
      !(content flash f.field).all f.valid := by
    rw [List.not_all_eq_any_not]
  rw [hany]
  cases boot.norReadable with
  | false => rfl
  | true =>
    cases (content flash f.field).all f.valid with
    | false => rfl
    | true => exact Function.update_self ..

/-- What the boot leaves in the variable depends on the content of its field alone. -/
theorem boardLateInit_var (f : Copied) :
    boardLateInit boot flash env f.var =
      if boot.norReadable && (content flash f.field).all f.valid then
        (if cstr (content flash f.field) = [] then none else some (cstr (content flash f.field)))
      else env f.var := by
  -- the variables set before have other names
  have hbefore : ∀ env : Env, (if boot.machid ≠ 0 then
      setenvAddr (setenvAddr env (ascii "flash_type") boot.flashType) (ascii "machid") boot.machid
      else setenvAddr env (ascii "flash_type") boot.flashType) f.var = env f.var := by
    intro env
    have hflash : f.var ≠ ascii "flash_type" := by cases f <;> decide
    have hmach : f.var ≠ ascii "machid" := by cases f <;> decide
    split
    · exact (setenv_of_ne hmach).trans (setenv_of_ne hflash)
    · exact setenv_of_ne hflash
  rw [boardLateInit, ← hbefore env]
  cases f with
  | name => exact (mnfToEnvVar_of_ne (by decide)).trans (mnfToEnvVar_eq .name)
  | hwver =>
    refine (mnfToEnvVar_eq .hwver).trans ?_
    congr 1
    exact mnfToEnvVar_of_ne (by decide)

/-- The boot sets the variable, whatever it was, exactly from a readable chip and a field
without padding. -/
theorem bootSets_iff {s : Board} {v : CStr} (hv : f.Admits v.text)
    (hcontent : content s.flash f.field =
      v.text ++ List.replicate (f.field.length - v.text.length) 0xff) :
    BootSets boot s f v.text ↔ boot.norReadable = true ∧ v.text.length = f.field.length := by
  have hne := hv.ne_nil
  have hle := hv.length_le
  constructor
  · intro h
    have hempty := h fun _ => none
    rw [boardLateInit_var, hcontent] at hempty
    split at hempty
    · rename_i hread
      obtain ⟨hnor, hall⟩ := Bool.and_eq_true_iff.mp hread
      refine ⟨hnor, ?_⟩
      by_contra hlt
      have hpad : (0xff : UInt8) ∈
          v.text ++ List.replicate (f.field.length - v.text.length) 0xff :=
        List.mem_append_right _ (List.mem_replicate.mpr ⟨by omega, rfl⟩)
      exact absurd (List.all_eq_true.mp hall _ hpad) (by rw [not_valid_pad]; decide)
    · exact absurd hempty (by simp)
  · rintro ⟨hnor, hlen⟩ env
    have hfull : content s.flash f.field = v.text := by rw [hcontent]; simp [hlen]
    have hread : (boot.norReadable && v.text.all f.valid) = true :=
      Bool.and_eq_true_iff.mpr ⟨hnor, List.all_eq_true.mpr hv.valid⟩
    rw [boardLateInit_var, hfull, if_pos hread, cstr_text, if_neg hne]

end LateInit

/-- **Manufacturing info and boot environment agree exactly on full fields.**  After a
successful `mnf set`, `mnf get` prints the value; the next boot sets the variable to it iff
the chip can be read and the value has the full length of its field. -/
theorem bootAgrees_iff {f : Copied} {v : CStr} {flags : List CStr} {s : Board} {hw : Hw}
    {boot : Boot} (hv : f.Admits v.text) (hset : (step s (hw, setCmd f v flags)).2 = true) :
    GetPrints (step s (hw, setCmd f v flags)).1 f v.text ∧
        BootSets boot (step s (hw, setCmd f v flags)).1 f v.text ↔
      boot.norReadable = true ∧ v.text.length = f.field.length := by
  rw [and_iff_right (get_prints hset hv)]
  exact bootSets_iff hv (content_of_set hset hv.length_le)

/-- A boot from a readable chip. -/
def Boot.readable : Boot := ⟨true, 0x8010006, 2⟩

/-- A full model name is what `mnf get` prints and what the boot sets. -/
theorem bootAgrees_full :
    GetPrints (step .erased (.working,
        setCmd .name (.ofText (ascii "RUTX11000000")) [.ofText (ascii "CONFIRM")])).1 .name
      (ascii "RUTX11000000") ∧
    BootSets .readable (step .erased (.working,
        setCmd .name (.ofText (ascii "RUTX11000000")) [.ofText (ascii "CONFIRM")])).1 .name
      (ascii "RUTX11000000") :=
  (bootAgrees_iff ⟨by decide, List.all_eq_true.mp (by decide), by decide⟩ (by decide)).mpr ⟨rfl, rfl⟩

/-- A model name of six characters is set and then not seen by the boot. -/
theorem short_name_not_seen :
    Copied.name.Admits (ascii "RUTX11") ∧
    (step .erased (.working,
      setCmd .name (.ofText (ascii "RUTX11")) [.ofText (ascii "CONFIRM")])).2 = true ∧
    ¬ BootSets .readable (step .erased (.working,
      setCmd .name (.ofText (ascii "RUTX11")) [.ofText (ascii "CONFIRM")])).1 .name
      (ascii "RUTX11") := by
  refine ⟨⟨by decide, List.all_eq_true.mp (by decide), by decide⟩, by decide, fun h => ?_⟩
  have hunset := h fun _ => none
  revert hunset
  decide

end Mnf
