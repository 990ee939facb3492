/-
The `mnf` command (`cmd_mnfinfo.c`).

Each subcommand checks its arguments, loads the partition, patches it and writes it back,
and returns early with a line on the console when a step fails.

* `updates` — the updates a successful command makes, given the values the fields had;
* `triple_mnfCmdEntry` — **a command makes all of its updates or none**: on success the
  chip is the old one with the updates, on an error it is the old one.
-/
import OpenMptcpRouter.Mnf.Flash

namespace Mnf

open CString Fallible Regions

/-- `mnf_cmd_flags`. -/
structure Flags where
  confirm : Bool := false
  force : Bool := false
  deriving DecidableEq, Repr

/-- `flags | bit`. -/
def Flags.or (a b : Flags) : Flags := ⟨a.confirm || b.confirm, a.force || b.force⟩

/-- `MNFINFO_PRINT`, and `MNFINFO_RESULT_OK`: the line is cut to a buffer of 256. -/
def mnfinfoPrint (line : Text) : Cmd Unit :=
  modify fun s => { s with console := s.console ++ [line.take 255] }

/-- `MNFINFO_RESULT_ERR`. -/
def mnfinfoResultErr (line : Text) : Cmd Unit :=
  modify fun s => { s with console := s.console ++ [ascii "ERROR: " ++ line.take 255] }

/-- The lines of `print_usage_help`. -/
def usageHelp : List Text :=
  [ ascii "",
    ascii "Usage: mnf <command> [args...]",
    ascii "",
    ascii "  Available commands:",
    ascii "    list                          - list available mnf fields",
    ascii "    show                          - show values of all mnf fields",
    ascii "    get <name>                    - display value of an mnf field",
    ascii "    set <name> <value> [flags...] - set the value of an mnf field",
    ascii "    restore <name> [flags...]     - restore mnf field to a default value",
    ascii "    repair [flags...]             - restore all mnf fields",
    ascii "",
    ascii "  Available flags:",
    ascii "    CONFIRM                       - Do not ask for confirmation",
    ascii "    FORCE                         - Ignore validity checks when restoring",
    ascii "" ]

/-- `MNFINFO_RESULT_ERR` and return 1. -/
def fail {α : Type} (line : Text) : Cmd α := do
  mnfinfoResultErr line
  throw ()

/-- `RET_MNFINFO_RESULT_USAGE`. -/
def retUsage {α : Type} (line : Text) : Cmd α := do
  usageHelp.forM mnfinfoPrint
  fail line

/-- `if (x) { MNFINFO_RESULT_ERR(line); return 1; }`. -/
def orErr {α : Type} (x : Cmd α) (line : Text) : Cmd α := tryCatch x fun _ => fail line

/-- The entry of `mnf_cmd_flag_map` with this name. -/
def flagBit (arg : Text) : Option Flags :=
  if arg = ascii "CONFIRM" then some { confirm := true }
  else if arg = ascii "FORCE" then some { force := true }
  else none

/-- The loop of `mnf_cmd_parse_flags`. -/
def mnfCmdParseFlags (result : Flags) : List CStr → Cmd Flags
  | [] => pure result
  | arg :: argv =>
    match flagBit arg.text with
    | none => retUsage (ascii "Invalid flag '" ++ arg.text ++ ascii "'")
    | some bit => mnfCmdParseFlags (result.or bit) argv

/-- The field a name stands for. -/
def fieldNamed (name : Text) : Option MnfField :=
  if name.length = 1 then mnfGetFieldInfoShort (name[0]?.getD 0) else mnfGetFieldInfoLong name

/-- `mnf_cmd_get_field`. -/
def mnfCmdGetField (name : CStr) : Cmd MnfField :=
  match fieldNamed name.text with
  | none => retUsage (ascii "Invalid mnf field '" ++ name.text ++ ascii "'")
  | some field => pure field

/-- `mnf_cmd_read_field`. -/
def mnfCmdReadField (hw : Hw) (field : MnfField) : Cmd Text :=
  orErr (mnfFlashRead hw field) (ascii "Could not read mnf info")

/-- `mnf_cmd_write_init`. -/
def mnfCmdWriteInit (hw : Hw) : Cmd Unit :=
  orErr (mnfFlashWriteInit hw) (ascii "Could not initialize flash for writing")

/-- `mnf_cmd_write_field`. -/
def mnfCmdWriteField (field : MnfField) (data : Text) : Cmd Unit :=
  orErr (mnfFlashWrite field data) (ascii "Could not update flash data")

/-- The question `mnf_cmd_write_finalize` asks without `CONFIRM`. -/
def askToContinue (hw : Hw) : Cmd Unit := do
  [ascii "", ascii "Warning!", ascii "Changing mnf info may break your device!",
    ascii "Proceed only if you know what you are doing.", ascii ""].forM mnfinfoPrint
  if hw.answer = ascii "yes" then pure ()
  else
    mnfinfoPrint (ascii "Write aborted")
    throw ()

/-- `mnf_cmd_write_finalize`. -/
def mnfCmdWriteFinalize (hw : Hw) (flags : Flags) : Cmd Unit := do
  (if flags.confirm then pure () else askToContinue hw)
  orErr (mnfFlashWriteFinalize hw) (ascii "Could not write to flash")

/-- `%16s`, `%20s`: padded on the left to width `n`. -/
def padLeft (n : ℕ) (s : Text) : Text := List.replicate (n - s.length) 32 ++ s

/-- `%-10s`: padded on the right. -/
def padRight (n : ℕ) (s : Text) : Text := s ++ List.replicate (n - s.length) 32

/-- What `restore_func` makes of the old content of a field. -/
def restored (hw : Hw) (field : MnfField) (old : Text) : Bool × Text :=
  restoreFunc field hw.rand (mnfFieldToStr field old)

/-- The new text of the field as a string on the stack. -/
def restoredStr (hw : Hw) (field : MnfField) (old : Text) : CStr :=
  ⟨(restored hw field old).2, hw.stack, nulFree_restoreFunc _ _ _⟩

/-- `mnf_cmd_repair_field`. -/
def mnfCmdRepairField (hw : Hw) (flags : Flags) (field : MnfField) : Cmd Unit := do
  let old ← mnfCmdReadField hw field
  if (restored hw field old).1 || flags.force then
    mnfinfoPrint (ascii " " ++ padLeft 16 field.description ++ ascii " - restore to '" ++
      (restored hw field old).2 ++ ascii "'")
    mnfCmdWriteField field (mnfStrToField field (restoredStr hw field old)).2
  else
    mnfinfoPrint (ascii " " ++ padLeft 16 field.description ++ ascii " - valid, keeping")

/-- `do_list`. -/
def doList : List CStr → Cmd Unit
  | _ :: _ => retUsage (ascii "'list' takes 0 arguments")
  | [] => do
    mnfinfoPrint (ascii "    Argument        Description")
    mnfinfoPrint (ascii " ====================================")
    mnfFields.forM fun field =>
      mnfinfoPrint (ascii "    " ++ [field.shortName] ++ ascii ", " ++
        padRight 10 field.longName ++ ascii " - " ++ field.description)
    mnfinfoPrint []

/-- `do_show`. -/
def doShow (hw : Hw) : List CStr → Cmd Unit
  | _ :: _ => retUsage (ascii "'show' takes 0 arguments")
  | [] => do
    mnfinfoPrint (ascii " " ++ padLeft 20 (ascii "Description") ++ ascii "  Value")
    mnfinfoPrint (ascii " ==========================================")
    mnfFields.forM fun field => do
      let buf ← mnfCmdReadField hw field
      mnfinfoPrint (ascii " " ++ padLeft 20 field.description ++ ascii ": " ++
        cstr (mnfFieldToStr field buf))
    mnfinfoPrint []

/-- `do_get`. -/
def doGet (hw : Hw) : List CStr → Cmd Unit
  | [name] => do
    let field ← mnfCmdGetField name
    let buf ← mnfCmdReadField hw field
    mnfinfoPrint (cstr (mnfFieldToStr field buf))
  | _ => retUsage (ascii "'get' takes 1 argument")

/-- `do_set`. -/
def doSet (hw : Hw) : List CStr → Cmd Unit
  | name :: value :: argv => do
    let flags ← mnfCmdParseFlags {} argv
    let field ← mnfCmdGetField name
    if (mnfStrToField field value).1 then fail (ascii "Invalid mnf value")
    else
      mnfCmdWriteInit hw
      mnfCmdWriteField field (mnfStrToField field value).2
      mnfCmdWriteFinalize hw flags
      mnfinfoPrint (field.description ++ ascii " updated successfully")
  | _ => retUsage (ascii "'set' takes at least 2 arguments")

/-- `do_repair`. -/
def doRepair (hw : Hw) (argv : List CStr) : Cmd Unit := do
  let flags ← mnfCmdParseFlags {} argv
  mnfCmdWriteInit hw
  mnfinfoPrint (ascii "Repairing mnf values:")
  mnfFields.forM (mnfCmdRepairField hw flags)
  mnfCmdWriteFinalize hw flags
  mnfinfoPrint (ascii "Repair complete")

/-- `do_restore`. -/
def doRestore (hw : Hw) : List CStr → Cmd Unit
  | name :: argv => do
    let flags ← mnfCmdParseFlags {} argv
    let field ← mnfCmdGetField name
    mnfCmdWriteInit hw
    mnfinfoPrint (ascii "Restoring mnf field:")
    mnfCmdRepairField hw { flags with force := true } field
    mnfCmdWriteFinalize hw flags
    mnfinfoPrint (field.description ++ ascii " restored successfully")
  | [] => retUsage (ascii "'restore' takes at least 1 argument")

/-- The subcommands. -/
inductive Subcmd
  | list | show | get | set | repair | restore
  deriving DecidableEq, Repr

/-- The subcommand of this name. -/
def subcmdNamed (name : Text) : Option Subcmd :=
  if name = ascii "list" then some .list
  else if name = ascii "show" then some .show
  else if name = ascii "get" then some .get
  else if name = ascii "set" then some .set
  else if name = ascii "repair" then some .repair
  else if name = ascii "restore" then some .restore
  else none

/-- `mnf_cmd_entry`. -/
def mnfCmdEntry (hw : Hw) : List CStr → Cmd Unit
  | [] => retUsage (ascii "No command specified")
  | subcmd :: argv =>
    match subcmdNamed subcmd.text with
    | some .list => doList argv
    | some .show => doShow hw argv
    | some .get => doGet hw argv
    | some .set => doSet hw argv
    | some .repair => doRepair hw argv
    | some .restore => doRestore hw argv
    | none => retUsage (ascii "Unrecognized command '" ++ subcmd.text ++ ascii "'")

/-- A step of the shell: one `mnf` command, and whether it returned 0. -/
def step (s : Board) (e : Hw × List CStr) : Board × Bool :=
  let r := runFrom (mnfCmdEntry e.1 e.2) s
  (r.2, r.1.isOk)

/-! ### The updates of a command -/

/-- The fields hold these bytes. -/
abbrev Ledger := MnfField → Text

/-- The update a repair of the field makes, by its old content. -/
def repairUpdate (hw : Hw) (force : Bool) (l : Ledger) (field : MnfField) : Updates :=
  if (restored hw field (l field)).1 || force then
    [(field, (mnfStrToField field (restoredStr hw field (l field))).2)]
  else []

/-- `FORCE` is among the flags. -/
def forced (argv : List CStr) : Bool := argv.any fun arg => arg.text == ascii "FORCE"

/-- The field the first argument names. -/
def namedField : List CStr → List MnfField
  | [] => []
  | name :: _ => (fieldNamed name.text).toList

/-- The updates of `set`. -/
def setUpdates : List CStr → Updates
  | name :: value :: _ =>
    (fieldNamed name.text).toList.map fun field => (field, (mnfStrToField field value).2)
  | _ => []

/-- The fields a command targets. -/
def targets : List CStr → List MnfField
  | [] => []
  | subcmd :: argv =>
    match subcmdNamed subcmd.text with
    | some .set | some .restore => namedField argv
    | some .repair => mnfFields
    | _ => []

/-- The updates a command commits when it succeeds. -/
def updates (hw : Hw) (l : Ledger) : List CStr → Updates
  | [] => []
  | subcmd :: argv =>
    match subcmdNamed subcmd.text with
    | some .set => setUpdates argv
    | some .restore => (namedField argv).flatMap (repairUpdate hw true l)
    | some .repair => mnfFields.flatMap (repairUpdate hw (forced argv) l)
    | _ => []

/-- The content of the fields on a chip. -/
def content (F : ℕ → UInt8) : Ledger := fun field => window F field.start field.length

section Console

variable {α : Type} {P E : Board → Prop} {line : Text}

/-- The predicate does not look at the console. -/
def Silent (P : Board → Prop) : Prop := ∀ (s : Board) (c : List Text), P s → P { s with console := c }

theorem silent_flashIs {F : ℕ → UInt8} : Silent (FlashIs F) := fun _ _ h => h

theorem silent_loaded {F : ℕ → UInt8} {ws : Updates} : Silent (Loaded F ws) := fun _ _ h => h

theorem triple_mnfinfoPrint (hP : Silent P) : Triple P (mnfinfoPrint line) (fun _ => P) E :=
  triple_modify fun s hs => hP s _ hs

theorem triple_prints (hP : Silent P) (lines : List Text) :
    Triple P (lines.forM mnfinfoPrint) (fun _ => P) E :=
  triple_forM (fun _ => P) (fun _ _ => triple_mnfinfoPrint hP) lines

theorem triple_fail (hE : ∀ (s : Board) (c : List Text), P s → E { s with console := c })
    {Q : α → Board → Prop} : Triple P (fail line) Q E := by
  have herr : Triple P (mnfinfoResultErr line) (fun _ => E) E := triple_modify fun s hs => hE s _ hs
  exact triple_bind herr fun _ => triple_throw fun _ hs => hs

theorem triple_retUsage (hP : Silent P) {Q : α → Board → Prop} :
    Triple P (retUsage line) Q P :=
  triple_bind (triple_prints hP usageHelp) fun _ => triple_fail hP

theorem triple_orErr (hE : ∀ (s : Board) (c : List Text), P s → E { s with console := c })
    {R : Board → Prop} {x : Cmd α} {Q : α → Board → Prop} (hx : Triple R x Q P) :
    Triple R (orErr x line) Q E :=
  triple_catch hx (triple_fail hE)

end Console

section Parts

variable {F : ℕ → UInt8} {ws : Updates} {hw : Hw} {field : MnfField}

/-- Whatever the flags in front, `force` ends up set iff it was or `FORCE` comes. -/
theorem triple_mnfCmdParseFlags (result : Flags) (argv : List CStr) :
    Triple (FlashIs F) (mnfCmdParseFlags result argv)
      (fun flags s => FlashIs F s ∧ flags.force = (result.force || forced argv)) (FlashIs F) := by
  induction argv generalizing result with
  | nil => exact triple_pure fun s hs => ⟨hs, by simp [forced]⟩
  | cons arg argv ih =>
    rw [mnfCmdParseFlags]
    cases hbit : flagBit arg.text with
    | none => exact triple_retUsage silent_flashIs
    | some bit =>
      refine triple_conseq (ih (result.or bit)) (fun _ hs => hs) (fun flags s hs => ⟨hs.1, ?_⟩)
        fun _ hs => hs
      have hforce : bit.force = (arg.text == ascii "FORCE") := by
        unfold flagBit at hbit
        split at hbit
        · rename_i hconfirm
          cases hbit
          rw [hconfirm]
          decide
        · split at hbit <;> cases hbit
          simp [*]
      rw [hs.2, forced, forced, List.any_cons, Flags.or, ← hforce, Bool.or_assoc]

theorem triple_mnfCmdGetField (name : CStr) {P : Board → Prop} (hP : Silent P) :
    Triple P (mnfCmdGetField name) (fun field s => fieldNamed name.text = some field ∧ P s) P := by
  rw [mnfCmdGetField]
  cases hname : fieldNamed name.text with
  | none => exact triple_retUsage hP
  | some field => exact triple_pure fun s hs => ⟨rfl, hs⟩

theorem mem_of_fieldNamed {name : Text} (h : fieldNamed name = some field) :
    field ∈ mnfFields := by
  rw [fieldNamed] at h
  split at h
  · exact List.mem_of_find?_eq_some h
  · exact List.mem_of_find?_eq_some h

/-- Every field of the table lies in the partition. -/
theorem inside_of_mem (h : field ∈ mnfFields) : field.Inside := by
  have hall : ∀ f ∈ mnfFields, f.offset + f.length ≤ mnfInfoSize := by decide
  exact hall field h

theorem good_singleton {bytes : Text} (hin : field.Inside) (hlen : bytes.length = field.length) :
    Updates.Good [(field, bytes)] :=
  ⟨by simpa [Fits] using hlen, by simpa using hin⟩

theorem good_flatMap {fields : List MnfField} {u : MnfField → Updates}
    (h : ∀ f ∈ fields, (u f).Good) : Updates.Good (fields.flatMap u) := by
  constructor
  · intro w hw
    obtain ⟨f, hf, hwf⟩ := List.mem_flatMap.mp hw
    exact (h f hf).1 w hwf
  · intro w hw
    obtain ⟨f, hf, hwf⟩ := List.mem_flatMap.mp hw
    exact (h f hf).2 w hwf

theorem good_repairUpdate {force : Bool} {l : Ledger} (hin : field.Inside) :
    (repairUpdate hw force l field).Good := by
  rw [repairUpdate]
  split
  · exact good_singleton hin (length_mnfStrToField _)
  · exact ⟨nofun, nofun⟩

theorem triple_mnfCmdReadField {P : Board → Prop} (hP : Silent P) (hF : ∀ s, P s → s.flash = F)
    (hprobe : ∀ s : Board, P s → P { s with probed := true }) :
    Triple P (mnfCmdReadField hw field) (fun old s => old = content F field ∧ P s) P :=
  triple_orErr hP (triple_mnfFlashRead hF hprobe)

theorem triple_mnfCmdWriteInit :
    Triple (FlashIs F) (mnfCmdWriteInit hw) (fun _ => Loaded F []) (FlashIs F) :=
  triple_orErr silent_flashIs triple_mnfFlashWriteInit

theorem triple_mnfCmdWriteField {buf : Text} (hlen : buf.length = field.length) :
    Triple (Loaded F ws) (mnfCmdWriteField field buf) (fun _ => Loaded F (ws ++ [(field, buf)]))
      (FlashIs F) :=
  triple_orErr silent_flashIs (triple_mnfFlashWrite hlen)

theorem triple_askToContinue :
    Triple (Loaded F ws) (askToContinue hw) (fun _ => Loaded F ws) (FlashIs F) := by
  refine triple_bind (triple_prints silent_loaded _) fun _ => triple_ite (fun _ => ?_) fun _ => ?_
  · exact triple_pure fun _ hs => hs
  · exact triple_bind (triple_mnfinfoPrint silent_loaded) fun _ =>
      triple_throw fun _ hs => hs.flashIs

theorem triple_mnfCmdWriteFinalize (herase : hw.eraseFails = none) (hwrite : hw.writeFails = none)
    (hgood : ws.Good) (flags : Flags) :
    Triple (Loaded F ws) (mnfCmdWriteFinalize hw flags) (fun _ => FlashIs (written F ws))
      (FlashIs F) := by
  have hask : Triple (Loaded F ws) (if flags.confirm then pure () else askToContinue hw)
      (fun _ => Loaded F ws) (FlashIs F) :=
    triple_ite (fun _ => triple_pure fun _ hs => hs) fun _ => triple_askToContinue
  exact triple_bind hask fun _ =>
    triple_orErr silent_flashIs (triple_mnfFlashWriteFinalize herase hwrite hgood)

/-- A repair adds its update to the cache; what it looks at is the chip. -/
theorem triple_mnfCmdRepairField (flags : Flags) (field : MnfField) :
    Triple (Loaded F ws) (mnfCmdRepairField hw flags field)
      (fun _ => Loaded F (ws ++ repairUpdate hw flags.force (content F) field)) (FlashIs F) := by
  have hread : Triple (Loaded F ws) (mnfCmdReadField hw field)
      (fun old s => old = content F field ∧ Loaded F ws s) (FlashIs F) :=
    triple_conseq (triple_mnfCmdReadField silent_loaded (fun _ hs => hs.1) fun _ hs => hs)
      (fun _ hs => hs) (fun _ _ hs => hs) fun _ hs => hs.flashIs
  refine triple_bind hread fun old => triple_fact fun hold => ?_
  subst hold
  by_cases hc : (restored hw field (content F field)).1 || flags.force
  · rw [repairUpdate, if_pos hc, if_pos hc]
    exact triple_bind (triple_mnfinfoPrint silent_loaded) fun _ =>
      triple_mnfCmdWriteField (length_mnfStrToField _)
  · rw [repairUpdate, if_neg hc, if_neg hc, List.append_nil]
    exact triple_mnfinfoPrint (E := FlashIs F) silent_loaded

/-- The loop of `do_repair` adds the updates of all fields, in the order of the table. -/
theorem triple_repairFields (flags : Flags) (fields : List MnfField) :
    Triple (Loaded F []) (fields.forM (mnfCmdRepairField hw flags))
      (fun _ => Loaded F (fields.flatMap (repairUpdate hw flags.force (content F)))) (FlashIs F) := by
  -- the fields done so far and those to come make up the list
  let Inv (rest : List MnfField) (s : Board) : Prop := ∃ done, fields = done ++ rest ∧
    Loaded F (done.flatMap (repairUpdate hw flags.force (content F))) s
  have hloop : Triple (Inv fields) (fields.forM (mnfCmdRepairField hw flags)) (fun _ => Inv [])
      (FlashIs F) := by
    refine triple_forM Inv (fun field rest => triple_exists fun done => triple_fact fun hfields => ?_)
      fields
    refine triple_conseq (triple_mnfCmdRepairField flags field) (fun _ hs => hs) (fun _ s hs => ?_)
      fun _ hs => hs
    refine ⟨done ++ [field], by rw [hfields, List.append_assoc]; rfl, ?_⟩
    rw [List.flatMap_append, List.flatMap_singleton]
    exact hs
  refine triple_conseq hloop (fun s hs => ⟨[], rfl, hs⟩) (fun _ s hs => ?_) fun _ hs => hs
  obtain ⟨done, hdone, hs⟩ := hs
  rw [List.append_nil] at hdone
  rw [hdone]
  exact hs

end Parts

section Commands

variable {F : ℕ → UInt8} {hw : Hw}

/-- A command that leaves the chip alone. -/
abbrev Keeps (F : ℕ → UInt8) (x : Cmd Unit) : Prop :=
  Triple (FlashIs F) x (fun _ => FlashIs F) (FlashIs F)

theorem keeps_retUsage {line : Text} : Keeps F (retUsage line) := triple_retUsage silent_flashIs

theorem keeps_mnfinfoPrint {line : Text} : Keeps F (mnfinfoPrint line) :=
  triple_mnfinfoPrint silent_flashIs

theorem triple_readField_flashIs (field : MnfField) :
    Triple (FlashIs F) (mnfCmdReadField hw field)
      (fun old s => old = content F field ∧ FlashIs F s) (FlashIs F) :=
  triple_mnfCmdReadField silent_flashIs (fun _ hs => hs) fun _ hs => hs

theorem keeps_doList (argv : List CStr) : Keeps F (doList argv) := by
  rcases argv with _ | _
  · refine triple_bind keeps_mnfinfoPrint fun _ => triple_bind keeps_mnfinfoPrint fun _ => ?_
    exact triple_bind (triple_forM (fun _ => FlashIs F) (fun _ _ => keeps_mnfinfoPrint) mnfFields)
      fun _ => keeps_mnfinfoPrint
  · exact keeps_retUsage

theorem keeps_doShow (argv : List CStr) : Keeps F (doShow hw argv) := by
  rcases argv with _ | _
  · refine triple_bind keeps_mnfinfoPrint fun _ => triple_bind keeps_mnfinfoPrint fun _ => ?_
    refine triple_bind (triple_forM (fun _ => FlashIs F) (fun field _ => ?_) mnfFields)
      fun _ => keeps_mnfinfoPrint
    exact triple_bind (triple_readField_flashIs field) fun _ => triple_fact fun _ =>
      keeps_mnfinfoPrint
  · exact keeps_retUsage

theorem keeps_doGet (argv : List CStr) : Keeps F (doGet hw argv) := by
  rcases argv with _ | ⟨name, _ | _⟩
  · exact keeps_retUsage
  · refine triple_bind (triple_mnfCmdGetField name silent_flashIs) fun field =>
      triple_fact fun _ => ?_
    exact triple_bind (triple_readField_flashIs field) fun _ => triple_fact fun _ =>
      keeps_mnfinfoPrint
  · exact keeps_retUsage

/-- A command that changes the chip by these updates. -/
abbrev Commits (F : ℕ → UInt8) (x : Cmd Unit) (ws : Updates) : Prop :=
  Triple (FlashIs F) x (fun _ => FlashIs (written F ws)) (FlashIs F)

theorem commits_of_keeps {x : Cmd Unit} (h : Keeps F x) : Commits F x [] := h

theorem commits_retUsage {line : Text} {ws : Updates} : Commits F (retUsage line) ws :=
  triple_retUsage silent_flashIs

/-- How every writing command ends. -/
theorem triple_finish (herase : hw.eraseFails = none) (hwrite : hw.writeFails = none)
    {ws : Updates} (hgood : ws.Good) {flags : Flags} {line : Text} :
    Triple (Loaded F ws)
      (do
        mnfCmdWriteFinalize hw flags
        mnfinfoPrint line)
      (fun _ => FlashIs (written F ws)) (FlashIs F) :=
  triple_bind (triple_mnfCmdWriteFinalize herase hwrite hgood flags) fun _ =>
    triple_mnfinfoPrint silent_flashIs

/-- A partition that was written was erased and written without an error. -/
theorem triple_writes {P : Board → Prop} :
    Triple P (mnfFlashWriteFinalize hw) (fun _ _ => hw.eraseFails = none ∧ hw.writeFails = none)
      (fun _ => True) := by
  rw [mnfFlashWriteFinalize]
  cases herase : hw.eraseFails with
  | some junk => exact fun _ _ => trivial
  | none =>
    cases hwrite : hw.writeFails with
    | some junk => exact fun _ _ => trivial
    | none => exact fun _ _ => ⟨rfl, rfl⟩

/-- A command that ends in a success did erase and write. -/
theorem triple_finish_writes {P : Board → Prop} {flags : Flags} {line : Text} :
    Triple P
      (do
        mnfCmdWriteFinalize hw flags
        mnfinfoPrint line)
      (fun _ _ => hw.eraseFails = none ∧ hw.writeFails = none) (fun _ => True) := by
  have hfinalize : Triple P (mnfCmdWriteFinalize hw flags)
      (fun _ _ => hw.eraseFails = none ∧ hw.writeFails = none) (fun _ => True) :=
    triple_bind (triple_trivial _) fun _ => triple_orErr (fun _ _ _ => trivial) triple_writes
  exact triple_bind hfinalize fun _ => triple_modify fun _ hs => hs

/-- How a command with a name begins: it goes on with the field of that name, or fails. -/
theorem commits_getField {ws : Updates} {next : Flags → MnfField → Cmd Unit} (name : CStr)
    (argv : List CStr)
    (h : ∀ flags field, fieldNamed name.text = some field → Commits F (next flags field) ws) :
    Commits F
      (do
        let flags ← mnfCmdParseFlags {} argv
        let field ← mnfCmdGetField name
        next flags field) ws := by
  refine triple_bind (triple_mnfCmdParseFlags {} argv) fun flags => ?_
  have hfield := triple_mnfCmdGetField name (silent_flashIs (F := F))
  refine triple_bind (triple_conseq hfield (fun _ hs => hs.1) (fun _ _ hs => hs) fun _ hs => hs)
    fun field => triple_fact fun hname => h flags field hname

theorem commits_doSet (herase : hw.eraseFails = none) (hwrite : hw.writeFails = none)
    (name value : CStr) (argv : List CStr) :
    Commits F (doSet hw (name :: value :: argv)) (setUpdates (name :: value :: argv)) := by
  refine commits_getField name argv fun flags field hname => ?_
  rw [setUpdates, hname]
  refine triple_ite (fun _ => triple_fail silent_flashIs) fun _ => ?_
  have hlen : (mnfStrToField field value).2.length = field.length := length_mnfStrToField value
  refine triple_bind triple_mnfCmdWriteInit fun _ =>
    triple_bind (triple_mnfCmdWriteField hlen) fun _ => ?_
  exact triple_finish herase hwrite (good_singleton (inside_of_mem (mem_of_fieldNamed hname)) hlen)

theorem commits_doRestore (herase : hw.eraseFails = none) (hwrite : hw.writeFails = none)
    (name : CStr) (argv : List CStr) :
    Commits F (doRestore hw (name :: argv))
      ((namedField (name :: argv)).flatMap (repairUpdate hw true (content F))) := by
  refine commits_getField name argv fun flags field hname => ?_
  rw [namedField, hname, Option.toList_some, List.flatMap_singleton]
  refine triple_bind triple_mnfCmdWriteInit fun _ =>
    triple_bind (triple_mnfinfoPrint silent_loaded) fun _ =>
      triple_bind (triple_mnfCmdRepairField { flags with force := true } field) fun _ => ?_
  exact triple_finish herase hwrite
    (good_repairUpdate (inside_of_mem (mem_of_fieldNamed hname)))

theorem commits_doRepair (herase : hw.eraseFails = none) (hwrite : hw.writeFails = none)
    (argv : List CStr) :
    Commits F (doRepair hw argv)
      (mnfFields.flatMap (repairUpdate hw (forced argv) (content F))) := by
  refine triple_bind (Q := fun flags s => flags.force = forced argv ∧ FlashIs F s)
    (triple_conseq (triple_mnfCmdParseFlags {} argv) (fun _ hs => hs) (fun _ _ hs => ⟨hs.2, hs.1⟩)
      fun _ hs => hs) fun flags => triple_fact fun hforce => ?_
  rw [← hforce]
  refine triple_bind triple_mnfCmdWriteInit fun _ =>
    triple_bind (triple_mnfinfoPrint silent_loaded) fun _ =>
      triple_bind (triple_repairFields flags mnfFields) fun _ => ?_
  exact triple_finish herase hwrite
    (good_flatMap fun field hfield => good_repairUpdate (inside_of_mem hfield))

/-- **A command makes all of its updates, or fails and leaves the chip as it was.** -/
theorem commits_mnfCmdEntry (herase : hw.eraseFails = none) (hwrite : hw.writeFails = none)
    (argv : List CStr) : Commits F (mnfCmdEntry hw argv) (updates hw (content F) argv) := by
  rcases argv with _ | ⟨subcmd, argv⟩
  · exact commits_retUsage
  rw [mnfCmdEntry, updates]
  cases subcmdNamed subcmd.text with
  | none => exact commits_retUsage
  | some cmd =>
    cases cmd with
    | list => exact commits_of_keeps (keeps_doList argv)
    | «show» => exact commits_of_keeps (keeps_doShow argv)
    | get => exact commits_of_keeps (keeps_doGet argv)
    | set =>
      rcases argv with _ | ⟨name, _ | ⟨value, argv⟩⟩
      · exact commits_retUsage
      · exact commits_retUsage
      · exact commits_doSet herase hwrite name value argv
    | repair => exact commits_doRepair herase hwrite argv
    | restore =>
      rcases argv with _ | ⟨name, argv⟩
      · exact commits_retUsage
      · exact commits_doRestore herase hwrite name argv

end Commands

end Mnf
