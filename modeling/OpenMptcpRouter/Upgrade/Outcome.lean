/-
How the outcome of an upgrade is reported (`NetLoopHttpd` in `net/net.c`).

Whether a command succeeds is left open: `ok n` says it for the `n`-th command that is
run, and the commands are recorded together with it.  A firmware upgrade sources a script
out of the uploaded image, which may be any list of parsed lines.

* `netLoopHttpd` — the end of the loop, once an upload is complete;
* `Truthful` — it reports success and resets the board only when no command has failed;
* `truthful_iff` — **which is so exactly when no command fails** (or the type of the
  upgrade is unknown): the report depends on the type alone, because `run_command`
  returns 0 or 1 and the test in the loop is `>= 0`.
-/
import OpenMptcpRouter.Upgrade.Flash

namespace Upgrade

open Hush Digits Httpd

/-- A command that has been run, and whether it succeeded. -/
abbrev Event := List Text × Bool

/-- A failed command.  The answer of `test` is no failure. -/
def Failed (e : Event) : Prop := e.2 = false ∧ e.1.head? ≠ some "test".toList

instance (e : Event) : Decidable (Failed e) := by unfold Failed; infer_instance

/-- The commands run so far. -/
abbrev Trace := List Event

/-- `WEBFAILSAFE_PROGRESS_*`. -/
inductive Progress
  | start
  | timeout
  | uploadReady
  | upgradeReady
  | upgradeFailed
  deriving DecidableEq, Repr

/-- The globals `NetLoopHttpd` goes by. -/
structure Globals where
  isRunning : Bool
  readyForUpgrade : Bool
  upgradeType : ℤ
  netBootFileXferSize : ℕ

/-- How a round of `NetLoopHttpd` ends: the board is reset, or the server starts again. -/
structure Outcome where
  trace : Trace
  progress : List Progress
  globals : Globals
  reset : Bool

section Commands

variable (ok : ℕ → Bool) (env : Text → Option Text) (script : List (PipeList Simple))

/-- A command with an open result. -/
def attempt (s : Shell Trace) (argv : List Text) : Shell Trace × ℤ :=
  ({ s with board := s.board ++ [(argv, ok s.board.length)] },
    if ok s.board.length then 0 else 1)

/-- The value of an `unsigned long` as `int`. -/
def toInt (n : ℕ) : ℤ := if n < 2 ^ 31 then n else n - 2 ^ 32

/-- `cmd_process` for a command of the script: `do_exit` returns `-r - 2`. -/
def scriptCommand (s : Shell Trace) (argv : List Text) : Shell Trace × ℤ :=
  if argv.head? = some "exit".toList ∧ argv.length ≤ 2 then
    (s, -toInt (argv[1]?.elim 0 fun a => (simpleStrtoul 10 a).1) - 2)
  else attempt ok s argv

/-- `do_source`: the image is checked, and then the script in it is run. -/
def doSource (s : Shell Trace) (argv : List Text) : Shell Trace × ℤ :=
  let r := attempt ok s argv
  if r.2 = 0 then
    runString (runSimple (fun _ => env) (scriptCommand ok)) false r.1 script
  else r

/-- `cmd_process` for a command of the upgrade. -/
def upgradeProcess (s : Shell Trace) (argv : List Text) : Shell Trace × ℤ :=
  if argv.head? = some "source".toList then doSource ok env script s argv else attempt ok s argv

/-- The end of the loop of `NetLoopHttpd`, for a complete upload. -/
def netLoopHttpd (g : Globals) : Outcome :=
  let r := doHttpUpgrade (fun _ => env) (upgradeProcess ok env script) { board := [] }
    g.netBootFileXferSize g.upgradeType
  if 0 ≤ r.2 then
    { trace := r.1.board
      progress := [.uploadReady, .upgradeReady]
      globals := g
      reset := true }
  else
    { trace := r.1.board
      progress := [.uploadReady, .upgradeFailed]
      globals :=
        { isRunning := false
          readyForUpgrade := false
          upgradeType := typeFirmware
          netBootFileXferSize := 0 }
      reset := false }

end Commands

/-- The report fits what has happened. -/
structure Truthful (o : Outcome) : Prop where
  ready : .upgradeReady ∈ o.progress ∨ o.reset = true → ∀ e ∈ o.trace, ¬ Failed e
  failed : (∃ e ∈ o.trace, Failed e) → .upgradeFailed ∈ o.progress ∧ o.reset = false

section Outcome

variable {ok : ℕ → Bool} {env : Text → Option Text} {script : List (PipeList Simple)}
  {g : Globals}

/-- The report depends on nothing but the type of the upgrade. -/
theorem truthful_netLoopHttpd_iff :
    Truthful (netLoopHttpd ok env script g) ↔
      (g.upgradeType = typeUboot ∨ g.upgradeType = typeFirmware ∨ g.upgradeType = typeArt →
        ∀ e ∈ (netLoopHttpd ok env script g).trace, ¬ Failed e) := by
  rw [netLoopHttpd]
  split
  · rename_i hcode
    have hknown := doHttpUpgrade_code.mp hcode
    refine ⟨fun h _ => h.ready (Or.inr rfl), fun h => ⟨fun _ => h hknown, ?_⟩⟩
    rintro ⟨e, he, hfailed⟩
    exact absurd hfailed (h hknown e he)
  · rename_i hcode
    have hunknown := mt doHttpUpgrade_code.mpr hcode
    refine ⟨fun _ hknown => absurd hknown hunknown, fun _ => ⟨?_, fun _ => by simp⟩⟩
    intro h
    simp at h

theorem run_attempt {s : Shell Trace} {w : Text} {ws : List Text} (hw : isAssignment w = false)
    (hsemi : ';' ∉ w) (hsource : w ≠ "source".toList) :
    runSimple (fun _ => env) (upgradeProcess ok env script) s { argv := w :: ws }
      = attempt ok s (w :: ws) := by
  rw [runSimple_eq hw hsemi, upgradeProcess, if_neg (by simpa using hsource)]

theorem not_failed (argv : List Text) : ¬ Failed (argv, true) := fun h => absurd h.1 (by simp)

/-- A command that is tried and is no question. -/
def Tries (ok : ℕ → Bool) (exec : Shell Trace → Simple → Shell Trace × ℤ) (c : Simple) : Prop :=
  ∃ argv : List Text, Failed (argv, false) ∧ ∀ s, exec s c = attempt ok s argv

theorem tries_sf {args : List Text} :
    Tries ok (runSimple (fun _ => env) (upgradeProcess ok env script))
      { argv := "sf".toList :: args } :=
  ⟨"sf".toList :: args, ⟨rfl, by simp⟩, fun _ => run_attempt (by decide) (by decide) (by decide)⟩

/-- No command of a line of three fails exactly when all three succeed. -/
theorem trace_andLine {exec : Shell Trace → Simple → Shell Trace × ℤ} {c₁ c₂ c₃ : Simple}
    (h₁ : Tries ok exec c₁) (h₂ : Tries ok exec c₂) (h₃ : Tries ok exec c₃) :
    (∀ e ∈ ((andLine c₁ c₂ c₃).run exec { board := [] }).1.board, ¬ Failed e) ↔
      ok 0 = true ∧ ok 1 = true ∧ ok 2 = true := by
  obtain ⟨a, ha, h₁⟩ := h₁
  obtain ⟨b, hb, h₂⟩ := h₂
  obtain ⟨c, hc, h₃⟩ := h₃
  rw [andLine, Stmt.run]
  -- the line ends at the first of the three that fails
  rcases ok₀ : ok 0 with _ | _
  · simp [runLine, h₁, attempt, ok₀, skips, ha]
  rcases ok₁ : ok 1 with _ | _
  · simp [runLine, h₁, h₂, attempt, ok₀, ok₁, skips, hb]
  rcases ok₂ : ok 2 with _ | _
  · simp [runLine, h₁, h₂, h₃, attempt, ok₀, ok₁, ok₂, skips, hc]
  · simp [runLine, h₁, h₂, h₃, attempt, ok₀, ok₁, ok₂, skips, not_failed]

/-- The commands run when the script is sourced behind a probe that has succeeded. -/
def sourceTrace (ok : ℕ → Bool) (env : Text → Option Text) (script : List (PipeList Simple)) :
    Trace :=
  (runSimple (fun _ => env) (upgradeProcess ok env script)
    { vars := [("imgaddr".toList, "0x81000000".toList)], board := [(sfProbe.argv, true)] }
    sourceScript).1.board

theorem trace_firmware :
    (∀ e ∈ ((andLine sfProbe { argv := ["imgaddr=0x81000000".toList] } sourceScript).run
        (runSimple (fun _ => env) (upgradeProcess ok env script)) { board := [] }).1.board,
      ¬ Failed e) ↔ ok 0 = true ∧ ∀ e ∈ sourceTrace ok env script, ¬ Failed e := by
  have hprobe : runSimple (fun _ => env) (upgradeProcess ok env script) { board := [] } sfProbe
      = attempt ok { board := [] } sfProbe.argv :=
    run_attempt (by decide) (by decide) (by decide)
  have hassign : ∀ s : Shell Trace, runSimple (fun _ => env) (upgradeProcess ok env script) s
      { argv := ["imgaddr=0x81000000".toList] } = (setLocalVar s "imgaddr=0x81000000".toList, 0) :=
    fun s => runSimple_assignment (by decide) (by decide)
  have hfailed : Failed (sfProbe.argv, false) := by decide
  rw [andLine, Stmt.run]
  simp only [List.cons_append, List.nil_append]
  rw [runLine, hprobe]
  rcases ok₀ : ok 0 with _ | _
  · simp [runLine, attempt, ok₀, skips, hfailed]
  · simp only [attempt, List.length_nil, ok₀, List.nil_append, if_true, skips]
    rw [if_neg (by decide), show decide _ = false by decide, runLine, hassign, if_neg (by decide),
      show skips _ _ = false by decide, runLine]
    have hend : ∀ r : Shell Trace × ℤ,
        (if r.2 < -1 then (r.1, true)
          else runLine (runSimple (fun _ => env) (upgradeProcess ok env script)) r.1
            (skips r.2 .seq) []).1 = r.1 := by
      intro r
      rw [runLine]
      split
      · rfl
      · rfl
    rw [hend]
    simp only [true_and]
    rfl

/-- Every command the upgrade runs succeeds. -/
def AllSucceed (ok : ℕ → Bool) (env : Text → Option Text) (script : List (PipeList Simple))
    (upgradeType : ℤ) : Prop :=
  if upgradeType = typeUboot ∨ upgradeType = typeArt then
    ok 0 = true ∧ ok 1 = true ∧ ok 2 = true
  else if upgradeType = typeFirmware then
    ok 0 = true ∧ ∀ e ∈ sourceTrace ok env script, ¬ Failed e
  else True

theorem trace_netLoopHttpd :
    (netLoopHttpd ok env script g).trace =
      (doHttpUpgrade (fun _ => env) (upgradeProcess ok env script) { board := [] }
        g.netBootFileXferSize g.upgradeType).1.board := by
  rw [netLoopHttpd]
  split
  · rfl
  · rfl

/-- **The report is true exactly when there is nothing to report.** -/
theorem truthful_iff :
    Truthful (netLoopHttpd ok env script g) ↔ AllSucceed ok env script g.upgradeType := by
  rw [truthful_netLoopHttpd_iff, trace_netLoopHttpd, AllSucceed]
  obtain ⟨running, readyForUpgrade, upgradeType, size⟩ := g
  dsimp only
  split_ifs with hthree hfirmware
  · rcases hthree with rfl | rfl
    · rw [doHttpUpgrade_uboot]
      simp only [true_or, forall_const]
      exact trace_andLine tries_sf tries_sf tries_sf
    · rw [doHttpUpgrade_art]
      simp only [or_true, forall_const]
      exact trace_andLine tries_sf tries_sf tries_sf
  · subst hfirmware
    rw [doHttpUpgrade_firmware]
    simp only [true_or, or_true, forall_const]
    exact trace_firmware
  · rw [not_or] at hthree
    exact iff_of_true (fun h => by simp [hthree, hfirmware] at h) trivial

/-- A one-byte U-Boot image, and `sf erase` fails: the board is reset all the same. -/
theorem failure_reported_ready :
    ¬ Truthful (netLoopHttpd (fun n => n ≠ 1) (fun _ => none) []
      { isRunning := true, readyForUpgrade := true, upgradeType := typeUboot,
        netBootFileXferSize := 1 }) := by
  intro h
  have hfailed : ∃ e ∈ (netLoopHttpd (fun n => n ≠ 1) (fun _ => none) []
      { isRunning := true, readyForUpgrade := true, upgradeType := typeUboot,
        netBootFileXferSize := 1 }).trace, Failed e := by
    decide +kernel
  exact absurd (h.failed hfailed).2 (by decide +kernel)

end Outcome

end Upgrade
