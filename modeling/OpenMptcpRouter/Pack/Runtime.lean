/-
A run of the flash script, command by command.

`source` hands the script to `hush`; a run is the list of the commands that were run, each
with whether it succeeded.  A command that must not fail is followed by a tail that reports
the failure and leaves the script, and whether this works hangs on two things: the tail is
run only when the list in front of it is not skipped, and its own commands succeed.

* `Runtime.run` — the run of a script, for any environment and any successes and failures;
* `Says` — tokens that run some harmless commands and go on;
* `Behaves`, `Runs` — tokens that run given erase and write commands, and after a failed
  command none; one lemma for each method of the script object.
-/
import Mathlib.Data.List.Chain
import OpenMptcpRouter.Pack.Script

namespace Pack

open Hush

/-! ### The commands at run time -/

/-- What a run depends on: the environment, and whether a command succeeds when it is run
as the `n`-th. -/
structure Runtime where
  getenv : Text → Text
  ok : ℕ → Command → Bool

/-- A word between quotation marks, with the variable in it replaced. -/
def Runtime.expand (rt : Runtime) (word : Text) : Text :=
  match word.dropWhile (· ≠ '$') with
  | [] => word
  | _ :: var => word.takeWhile (· ≠ '$') ++ rt.getenv var

/-- `test "left" = "right"`. -/
def Runtime.holds (rt : Runtime) (left right : Text) : Bool := rt.expand left = right

/-- A command that was run, and whether it succeeded. -/
abbrev Event := Command × Bool

/-- Whether a command succeeds as the `n`-th; `do_echo` always does. -/
def Runtime.succeeds (rt : Runtime) (n : ℕ) : Command → Bool
  | .test left right => rt.holds left right
  | .assign _ _ | .echo _ | .exit _ => true
  | c => rt.ok n c

/-- A command is run; `do_exit` returns `-r - 2`. -/
def Runtime.exec (rt : Runtime) (log : List Event) (c : Command) : List Event × ℤ :=
  (log ++ [(c, rt.succeeds log.length c)],
    match c with
    | .exit code => -code - 2
    | _ => if rt.succeeds log.length c then 0 else 1)

/-- The run of a script. -/
def Runtime.run (rt : Runtime) (script : List (Token Command)) : List Event :=
  (runString rt.exec false [] (parse {} [] script)).1

/-- The commands whose failure has to stop the script: `probe`, `nand device`, `imxtract`,
and those of the sections. -/
def Command.isCritical : Command → Bool
  | .sfProbe | .nandDevice _ | .imxtract _ => true
  | c => c.isFlash

def Failed (e : Event) : Prop := e.1.isCritical = true ∧ e.2 = false

instance (e : Event) : Decidable (Failed e) :=
  inferInstanceAs (Decidable (e.1.isCritical = true ∧ e.2 = false))

/-- After a failed command, no section is erased or written any more. -/
def FailStop (log : List Event) : Prop := log.Pairwise fun e f => Failed e → f.1.isFlash = false

instance (log : List Event) : Decidable (FailStop log) :=
  inferInstanceAs (Decidable (log.Pairwise fun e f => Failed e → f.1.isFlash = false))

/-- The erase and write commands of a run. -/
def flashes (log : List Event) : List Command := (log.map Prod.fst).filter Command.isFlash

def Command.isNandDevice : Command → Bool
  | .nandDevice _ => true
  | _ => false

/-- The failures that the script can deal with: a `setenv` right behind a failed command
succeeds, and so does `nand device`, but in a script for NAND only. -/
structure Handled (nandOnly : Prop) (log : List Event) : Prop where
  reported : log.IsChain fun e f => Failed e → f.1 = .setenvStdout "serial".toList → f.2 = true
  selected : nandOnly ∨ ∀ e ∈ log, e.1.isNandDevice = true → e.2 = true

theorem Handled.left {nandOnly : Prop} {new new' : List Event}
    (h : Handled nandOnly (new ++ new')) : Handled nandOnly new :=
  ⟨h.reported.left_of_append,
    h.selected.imp_right fun hall e he => hall e (List.mem_append_left new' he)⟩

theorem Handled.right {nandOnly : Prop} {new new' : List Event}
    (h : Handled nandOnly (new ++ new')) : Handled nandOnly new' :=
  ⟨h.reported.right_of_append,
    h.selected.imp_right fun hall e he => hall e (List.mem_append_right new he)⟩

theorem flashes_append (log log' : List Event) :
    flashes (log ++ log') = flashes log ++ flashes log' := by
  rw [flashes, List.map_append, List.filter_append]
  rfl

theorem flashes_eq_nil {log : List Event} (h : ∀ e ∈ log, e.1.isFlash = false) :
    flashes log = [] := by
  rw [flashes, List.filter_eq_nil_iff]
  intro c hc
  obtain ⟨e, he, rfl⟩ := List.mem_map.mp hc
  rw [h e he]
  exact Bool.false_ne_true

theorem isCritical_of_isFlash {c : Command} (h : c.isFlash = true) : c.isCritical = true := by
  cases c <;> first | rfl | cases h

theorem failStop_of_noFlash {log : List Event} (h : ∀ e ∈ log, e.1.isFlash = false) :
    FailStop log :=
  (List.pairwise_of_forall fun _ _ => trivial).imp_of_mem fun _ hf _ _ => h _ hf

theorem failStop_of_noFailure {log : List Event} (h : ¬ ∃ e ∈ log, Failed e) : FailStop log :=
  (List.pairwise_of_forall fun _ _ => trivial).imp_of_mem
    fun he _ _ hfailed => absurd ⟨_, he, hfailed⟩ h

/-! ### What a part of the script amounts to -/

/-- From `log` on, more commands are run and the script is left or not, as `r` has it.
Where the failures can be dealt with, nothing is flashed after one and the script is left;
where there is none, `fs` is flashed and `fin` says whether the script is left. -/
def Behaves (nandOnly : Prop) (log : List Event) (r : List Event × Bool) (fs : List Command)
    (fin : Bool) : Prop :=
  ∃ new, r.1 = log ++ new ∧
    (Handled nandOnly new → FailStop new ∧ ((∃ e ∈ new, Failed e) → r.2 = true)) ∧
    ((¬ ∃ e ∈ new, Failed e) → flashes new = fs ∧ r.2 = fin)

section Behaves

variable {rt : Runtime} {nandOnly : Prop} {log : List Event} {r r' : List Event × Bool}
  {fs fs' : List Command} {fin fin' : Bool} {c : Command}

/-- One part behind another, which is run unless the first has left the script. -/
theorem Behaves.append (h : Behaves nandOnly log r fs fin)
    (h' : r.2 = false → Behaves nandOnly r.1 r' fs' fin') :
    Behaves nandOnly log (if r.2 then r else r') (if fin then fs else fs ++ fs') (fin || fin') := by
  obtain ⟨new, hnew, hstop, hdone⟩ := h
  cases hleft : r.2 with
  | true =>
    rw [if_pos rfl]
    refine ⟨new, hnew, hstop, fun hok => ?_⟩
    obtain ⟨hfs, hr⟩ := hdone hok
    have htrue : fin = true := hr.symm.trans hleft
    rw [htrue]
    exact ⟨hfs, hleft⟩
  | false =>
    rw [if_neg Bool.false_ne_true]
    obtain ⟨new', hnew', hstop', hdone'⟩ := h' hleft
    refine ⟨new ++ new', ?_, fun hhandled => ?_, fun hok => ?_⟩
    · rw [hnew', hnew, List.append_assoc]
    · -- the first part has not left the script, so nothing has failed in it
      obtain ⟨hfail, hfailed⟩ := hstop hhandled.left
      obtain ⟨hfail', hfailed'⟩ := hstop' hhandled.right
      have hnone : ¬ ∃ e ∈ new, Failed e := fun hex => by
        rw [hfailed hex] at hleft
        cases hleft
      refine ⟨List.pairwise_append.mpr ⟨hfail, hfail', fun e he f _ hbad => ?_⟩, ?_⟩
      · exact absurd ⟨e, he, hbad⟩ hnone
      · rintro ⟨e, he, hbad⟩
        rcases List.mem_append.mp he with he | he
        · exact absurd ⟨e, he, hbad⟩ hnone
        · exact hfailed' ⟨e, he, hbad⟩
    · have hok₁ : ¬ ∃ e ∈ new, Failed e := fun ⟨e, he, hbad⟩ =>
        hok ⟨e, List.mem_append_left new' he, hbad⟩
      have hok₂ : ¬ ∃ e ∈ new', Failed e := fun ⟨e, he, hbad⟩ =>
        hok ⟨e, List.mem_append_right new he, hbad⟩
      obtain ⟨hfs, hr⟩ := hdone hok₁
      obtain ⟨hfs', hr'⟩ := hdone' hok₂
      have hfalse : fin = false := hr.symm.trans hleft
      rw [flashes_append, hfs, hfs', hfalse]
      exact ⟨rfl, hr'⟩

/-- A part in which no command of a section is run, and no failure can occur. -/
theorem behaves_quiet {new : List Event} (left : Bool)
    (h : ∀ e ∈ new, e.1.isCritical = false) : Behaves nandOnly log (log ++ new, left) [] left := by
  have hnone : ¬ ∃ e ∈ new, Failed e := fun ⟨e, he, hbad⟩ => by
    rw [Failed, h e he] at hbad
    exact Bool.false_ne_true hbad.1
  have hflash : ∀ e ∈ new, e.1.isFlash = false := fun e he => by
    by_contra hbad
    have hcrit := isCritical_of_isFlash (Bool.not_eq_false _ ▸ hbad)
    rw [h e he] at hcrit
    cases hcrit
  exact ⟨new, rfl, fun _ => ⟨failStop_of_noFailure hnone, fun hex => absurd hex hnone⟩,
    fun _ => ⟨flashes_eq_nil hflash, rfl⟩⟩

/-- A part that flashes nothing and leaves the script. -/
theorem behaves_leaving {new : List Event} (h : ∀ e ∈ new, e.1.isFlash = false) :
    Behaves nandOnly log (log ++ new, true) [] true :=
  ⟨new, rfl, fun _ => ⟨failStop_of_noFlash h, fun _ => rfl⟩, fun _ => ⟨flashes_eq_nil h, rfl⟩⟩

theorem behaves_success (c : Command) :
    Behaves nandOnly log (log ++ [(c, true)], false) ([c].filter Command.isFlash) false := by
  have hnone : ¬ ∃ e ∈ [((c, true) : Event)], Failed e := by
    rintro ⟨e, he, hbad⟩
    obtain rfl := List.mem_singleton.mp he
    exact Bool.false_ne_true hbad.2.symm
  exact ⟨_, rfl, fun _ => ⟨List.pairwise_singleton _ _, fun hex => absurd hex hnone⟩,
    fun _ => ⟨rfl, rfl⟩⟩

/-! ### Commands that must not fail -/

/-- The commands of `onFailure`. -/
def failureTail : List (Command × Followup) :=
  [(.setenvStdout "serial".toList, .and), (.echo "\"$failedmsg\"".toList, .and), (.exit 1, .seq)]

theorem exec_critical (hc : c.isCritical = true) :
    rt.exec log c = (log ++ [(c, rt.ok log.length c)], if rt.ok log.length c then 0 else 1) := by
  cases c <;> first | rfl | cases hc

theorem runLine_skipped : runLine rt.exec log true failureTail = (log, false) := by
  simp [failureTail, runLine]

/-- After a failed command the tail leaves the script, if its `setenv` succeeds. -/
theorem behaves_failure (hc : c.isCritical = true) :
    Behaves nandOnly log (runLine rt.exec (log ++ [(c, false)]) false failureTail) fs fin := by
  have hbad : Failed (c, false) := ⟨hc, rfl⟩
  obtain ⟨done, hdone⟩ : ∃ done, done =
    rt.ok (log ++ [(c, false)]).length (.setenvStdout "serial".toList) := ⟨_, rfl⟩
  have hsetenv : rt.exec (log ++ [(c, false)]) (.setenvStdout "serial".toList) =
      (log ++ [(c, false)] ++ [(.setenvStdout "serial".toList, done)], if done then 0 else 1) := by
    rw [hdone]
    rfl
  rw [failureTail, runLine, hsetenv]
  cases done with
  | true =>
    refine ⟨[(c, false), (.setenvStdout "serial".toList, true), (.echo "\"$failedmsg\"".toList, true),
      (.exit 1, true)], ?_, fun _ => ⟨?_, fun _ => ?_⟩, fun hok => ?_⟩
    · simp [runLine, Runtime.exec, Runtime.succeeds, skips]
    · refine List.Pairwise.cons (fun f hf _ => ?_) (failStop_of_noFlash fun f hf => ?_)
      · simp only [List.mem_cons, List.not_mem_nil, or_false] at hf
        rcases hf with rfl | rfl | rfl <;> rfl
      · simp only [List.mem_cons, List.not_mem_nil, or_false] at hf
        rcases hf with rfl | rfl | rfl <;> rfl
    · simp [runLine, Runtime.exec, Runtime.succeeds, skips]
    · exact absurd ⟨_, List.mem_cons_self, hbad⟩ hok
  | false =>
    refine ⟨[(c, false), (.setenvStdout "serial".toList, false)], ?_, fun hhandled => ?_,
      fun hok => ?_⟩
    · simp [runLine, skips]
    · exact absurd (List.isChain_pair.mp hhandled.reported hbad rfl) Bool.false_ne_true
    · exact absurd ⟨_, List.mem_cons_self, hbad⟩ hok

/-- A command with its tail. -/
theorem behaves_guarded (hc : c.isCritical = true) :
    Behaves nandOnly log (runLine rt.exec log false ((c, .or) :: failureTail))
      ([c].filter Command.isFlash) false := by
  rw [runLine]
  rw [exec_critical hc]
  cases rt.ok log.length c with
  | true =>
    have hskip : runLine rt.exec (log ++ [(c, true)]) true failureTail =
      (log ++ [(c, true)], false) := runLine_skipped
    exact hskip ▸ behaves_success c
  | false => exact behaves_failure hc

/-- `nand device N && nand erase A B` with the tail.  A failing `nand device` skips the tail
as well. -/
theorem behaves_selected (hnor : ¬ nandOnly) (device : ℕ) (hc : c.isCritical = true) :
    Behaves nandOnly log
      (runLine rt.exec log false ((.nandDevice device, .and) :: (c, .or) :: failureTail))
      ([c].filter Command.isFlash) false := by
  rw [runLine]
  rw [exec_critical rfl]
  cases rt.ok log.length (.nandDevice device) with
  | true =>
    have hselect : Behaves nandOnly log (log ++ [(Command.nandDevice device, true)], false) [] false :=
      behaves_success (.nandDevice device)
    exact hselect.append fun _ => behaves_guarded hc
  | false =>
    refine ⟨[(.nandDevice device, false)], ?_, fun hhandled => ?_, fun hok => ?_⟩
    · simp [failureTail, runLine, skips]
    · rcases hhandled.selected with hnand | hall
      · exact absurd hnand hnor
      · exact absurd (hall _ List.mem_cons_self rfl) Bool.false_ne_true
    · exact absurd ⟨_, List.mem_cons_self, rfl, rfl⟩ hok

end Behaves

/-! ### Harmless tokens -/

/-- Behind `a`, the tokens of `b` run commands of a kind and do not leave the script. -/
def Says (rt : Runtime) (p : Command → Bool) (a b : List (Token Command)) : Prop :=
  ∃ stmts : List (Stmt Command), b = a ++ (Block.ofList stmts).tokens ∧
    ∀ log, ∃ new, (Block.ofList stmts).run rt.exec log = (log ++ new, false) ∧
      ∀ e ∈ new, p e.1 = true

/-- No command whose failure would have to stop the script. -/
def Command.isHarmless (c : Command) : Bool := !c.isCritical

section Says

variable {rt : Runtime} {p q : Command → Bool} {a b c : List (Token Command)}

theorem Says.refl (a : List (Token Command)) : Says rt p a a :=
  ⟨[], (List.append_nil a).symm, fun log => ⟨[], by rw [List.append_nil]; rfl, by simp⟩⟩

theorem Says.trans (h : Says rt p a b) (h' : Says rt p b c) : Says rt p a c := by
  obtain ⟨xs, hb, hxs⟩ := h
  obtain ⟨ys, hc, hys⟩ := h'
  refine ⟨xs ++ ys, by rw [hc, hb, tokens_ofList_append, List.append_assoc], fun log => ?_⟩
  obtain ⟨new, hrun, hnew⟩ := hxs log
  obtain ⟨new', hrun', hnew'⟩ := hys (log ++ new)
  refine ⟨new ++ new', ?_, fun e he => ?_⟩
  · rw [run_ofList_append, hrun, if_neg Bool.false_ne_true, hrun', List.append_assoc]
  · rcases List.mem_append.mp he with he | he
    · exact hnew e he
    · exact hnew' e he

theorem Says.mono (h : Says rt p a b) (hpq : ∀ c, p c = true → q c = true) : Says rt q a b := by
  obtain ⟨xs, hb, hxs⟩ := h
  refine ⟨xs, hb, fun log => ?_⟩
  obtain ⟨new, hrun, hnew⟩ := hxs log
  exact ⟨new, hrun, fun e he => hpq _ (hnew e he)⟩

/-- Commands with nothing but sequence separators. -/
theorem runLine_plain (rt : Runtime) {cs : List Command} (hp : ∀ c ∈ cs, p c = true)
    (hexit : ∀ c ∈ cs, ∀ code, c ≠ .exit code) (log : List Event) :
    ∃ new, runLine rt.exec log false (cs.map fun c => (c, .seq)) = (log ++ new, false) ∧
      ∀ e ∈ new, p e.1 = true := by
  induction cs generalizing log with
  | nil => exact ⟨[], by rw [List.append_nil]; rfl, by simp⟩
  | cons c cs ih =>
    have hcode : ¬ (rt.exec log c).2 < -1 := by
      cases c with
      | exit code => exact absurd rfl (hexit _ List.mem_cons_self code)
      | _ => simp only [Runtime.exec]; split <;> decide
    obtain ⟨new, hrun, hnew⟩ := ih (fun d hd => hp d (List.mem_cons_of_mem c hd))
      (fun d hd => hexit d (List.mem_cons_of_mem c hd)) (rt.exec log c).1
    refine ⟨(c, rt.succeeds log.length c) :: new, ?_, fun e he => ?_⟩
    · rw [List.map_cons, runLine]
      simp only [hcode, if_false, skips, reduceCtorEq, and_false, or_self, decide_false]
      have hlog : (rt.exec log c).1 = log ++ [(c, rt.succeeds log.length c)] := rfl
      rw [hrun, hlog, List.append_assoc]
      rfl
    · rcases List.mem_cons.mp he with rfl | he
      · exact hp c List.mem_cons_self
      · exact hnew e he

theorem says_line (a : List (Token Command)) (cs : List Command) (last : Command)
    (hp : ∀ c ∈ cs ++ [last], p c = true) (hexit : ∀ c ∈ cs ++ [last], ∀ code, c ≠ .exit code) :
    Says rt p a (a ++ (lineTokens (cs.map fun c => (c, .seq)) ++ [.cmd last, .newline])) := by
  refine ⟨[.line (cs.map fun c => (c, .seq)) last], ?_, fun log => ?_⟩
  · rw [Block.ofList, Block.ofList, Block.tokens, Block.tokens, List.append_nil, Stmt.tokens]
  · have hline := runLine_plain rt hp hexit log
    rw [List.map_append] at hline
    rw [run_singleton, Stmt.run]
    exact hline

theorem says_plain (a : List (Token Command)) {c : Command} (hp : p c = true)
    (hexit : ∀ code, c ≠ .exit code) : Says rt p a (a ++ [.cmd c, .newline]) := by
  refine says_line a [] c (fun d hd => ?_) (fun d hd => ?_)
  · obtain rfl := List.mem_singleton.mp hd
    exact hp
  · obtain rfl := List.mem_singleton.mp hd
    exact hexit

theorem says_ifElse {left right : Text} (hp : ∀ left right, p (.test left right) = true)
    (h : Says rt p (a ++ ifTest left right) b) (h' : Says rt p (b ++ [.reserved .else, .newline]) c) :
    Says rt p a (c ++ [.reserved .fi, .newline]) := by
  obtain ⟨xs, hb, hxs⟩ := h
  obtain ⟨ys, hc, hys⟩ := h'
  refine ⟨[.ifElse (.test left right) (.ofList xs) (.ofList ys)], ?_, fun log => ?_⟩
  · rw [hc, hb, Block.ofList, Block.ofList, Block.tokens, Block.tokens, Stmt.tokens, ifTest]
    simp only [List.append_assoc, List.append_nil]
  · rw [run_singleton, Stmt.run]
    have hexec : rt.exec log (.test left right) = (log ++ [(.test left right, rt.holds left right)],
      if rt.holds left right then 0 else 1) := rfl
    rw [hexec]
    cases rt.holds left right with
    | true =>
      obtain ⟨new, hrun, hnew⟩ := hxs (log ++ [(.test left right, true)])
      refine ⟨(.test left right, true) :: new, ?_, fun e he => ?_⟩
      · simpa using hrun
      · rcases List.mem_cons.mp he with rfl | he
        · exact hp left right
        · exact hnew e he
    | false =>
      obtain ⟨new, hrun, hnew⟩ := hys (log ++ [(.test left right, false)])
      refine ⟨(.test left right, false) :: new, ?_, fun e he => ?_⟩
      · simpa using hrun
      · rcases List.mem_cons.mp he with rfl | he
        · exact hp left right
        · exact hnew e he

variable (s : FlashScript)

theorem says_redirect (dev : Text) : Says rt Command.isHarmless s.script (s.redirect dev).script := by
  rw [FlashScript.redirect]
  split
  · exact Says.refl _
  · exact says_plain _ rfl fun _ h => by cases h

theorem says_echo (msg : Text) (nl verbose : Bool) :
    Says rt Command.isHarmless s.script (s.echo msg nl verbose).script := by
  cases verbose with
  | true => exact says_plain _ rfl fun _ h => by cases h
  | false =>
    exact ((says_redirect s _).trans (says_plain _ rfl (fun _ h => by cases h))).trans (says_redirect _ _)

theorem says_startActivity (activity : Text) :
    Says rt Command.isHarmless s.script (s.startActivity activity).script :=
  says_ifElse (fun _ _ => rfl) (says_echo (s.add ifVerbose) _ _ _) (says_echo (FlashScript.add _ _) _ _ _)

theorem says_finishActivity : Says rt Command.isHarmless s.script s.finishActivity.script :=
  says_ifElse (fun _ _ => rfl) ((says_echo (s.add ifVerbose) _ _ _).trans (says_redirect _ _))
    (says_echo (FlashScript.add _ _) _ _ _)

theorem says_init (flinfo : FlashInfo) (spiNand : Text) :
    Says rt Command.isHarmless [] (FlashScript.init flinfo spiNand).script :=
  says_ifElse (fun _ _ => rfl) (says_plain _ rfl (fun _ h => by cases h)) (says_plain _ rfl (fun _ h => by cases h))

end Says

/-! ### The methods of the script object -/

/-- Behind `a`, the tokens of `b` flash `fs`, and leave the script if `fin`. -/
def Runs (rt : Runtime) (nandOnly : Prop) (a b : List (Token Command)) (fs : List Command)
    (fin : Bool) : Prop :=
  ∃ stmts : List (Stmt Command), b = a ++ (Block.ofList stmts).tokens ∧
    ∀ log, Behaves nandOnly log ((Block.ofList stmts).run rt.exec log) fs fin

section Runs

variable {rt : Runtime} {nandOnly : Prop} {a b b' : List (Token Command)} {fs fs' : List Command}
  {fin fin' : Bool} {c : Command}

/-- Tokens that leave the script stop those behind them. -/
theorem Runs.append (h : Runs rt nandOnly a b fs fin) (h' : Runs rt nandOnly b b' fs' fin') :
    Runs rt nandOnly a b' (if fin then fs else fs ++ fs') (fin || fin') := by
  obtain ⟨xs, hb, hxs⟩ := h
  obtain ⟨ys, hb', hys⟩ := h'
  refine ⟨xs ++ ys, by rw [hb', hb, tokens_ofList_append, List.append_assoc], fun log => ?_⟩
  rw [run_ofList_append]
  exact (hxs log).append fun _ => hys _

theorem Runs.trans (h : Runs rt nandOnly a b fs false) (h' : Runs rt nandOnly b b' fs' fin) :
    Runs rt nandOnly a b' (fs ++ fs') fin := h.append h'

theorem Says.runs (h : Says rt Command.isHarmless a b) : Runs rt nandOnly a b [] false := by
  obtain ⟨xs, hb, hxs⟩ := h
  refine ⟨xs, hb, fun log => ?_⟩
  obtain ⟨new, hrun, hnew⟩ := hxs log
  rw [hrun]
  exact behaves_quiet false fun e he => (Bool.not_eq_true' _).mp (hnew e he)

/-- The tokens stand behind others. -/
theorem Runs.behind (h : Runs rt nandOnly [] b fs fin) (a : List (Token Command)) :
    Runs rt nandOnly a (a ++ b) fs fin := by
  obtain ⟨xs, hb, hxs⟩ := h
  exact ⟨xs, by rw [hb, List.nil_append], hxs⟩

theorem runs_line (init : List (Command × Followup)) (last : Command)
    (h : ∀ log, Behaves nandOnly log (runLine rt.exec log false (init ++ [(last, .seq)])) fs fin) :
    Runs rt nandOnly a (a ++ (Stmt.line init last).tokens) fs fin := by
  refine ⟨[.line init last], ?_, fun log => ?_⟩
  · rw [Block.ofList, Block.ofList, Block.tokens, Block.tokens, List.append_nil]
  · rw [run_singleton, Stmt.run]
    exact h log

variable {s t : FlashScript}

theorem runs_append (s : FlashScript) (hc : c.isCritical = true) :
    Runs rt nandOnly s.script (s.append [.cmd c]).script ([c].filter Command.isFlash) false :=
  runs_line ((c, .or) :: failureTail.dropLast) (.exit 1) fun _ => behaves_guarded hc

theorem runs_appendAll (s : FlashScript) {cs : List Command}
    (hcs : ∀ c ∈ cs, c.isFlash = true) :
    Runs rt nandOnly s.script (s.appendAll cs).script cs false := by
  induction cs generalizing s with
  | nil => exact (Says.refl s.script).runs
  | cons c cs ih =>
    have hflash := hcs c List.mem_cons_self
    have hone : Runs rt nandOnly s.script (s.append [.cmd c]).script _ false :=
      runs_append s (isCritical_of_isFlash hflash)
    rw [List.filter_cons_of_pos hflash, List.filter_nil] at hone
    exact hone.trans (ih _ fun d hd => hcs d (List.mem_cons_of_mem c hd))

theorem runs_selected (s : FlashScript) (hnor : ¬ nandOnly) (device : ℕ) (offset size : ℤ) :
    Runs rt nandOnly s.script
      (s.append [.cmd (.nandDevice device), .sep .and, .cmd (.nandErase offset size)]).script
      [.nandErase offset size] false :=
  runs_line ((.nandDevice device, .and) :: (.nandErase offset size, .or) :: failureTail.dropLast)
    (.exit 1) fun _ => behaves_selected hnor device rfl

theorem runs_imxtract (s : FlashScript) (part : Text) :
    Runs rt nandOnly s.script (s.imxtract part).script [] false := runs_append s rfl

theorem runs_erase {offset size : ℤ} (h : s.erase offset size = .ok t) :
    Runs rt nandOnly s.script t.script [eraseCommand s.flinfo offset size] false := by
  obtain ⟨rfl, -⟩ := erase_eq_ok h
  have hall : ∀ c ∈ [eraseCommand s.flinfo offset size], c.isFlash = true := by
    intro c hc
    obtain rfl := List.mem_singleton.mp hc
    exact isFlash_eraseCommand _ _ _
  exact runs_appendAll s hall

theorem runs_write {offset size : ℤ} {yaffs : Bool} (h : s.write offset size yaffs = .ok t) :
    Runs rt nandOnly s.script t.script (writeCommands s.flinfo offset size yaffs) false := by
  rw [write_eq_ok h]
  exact runs_appendAll s isFlash_writeCommands

theorem runs_nandWrite {offset partSize imgSize : ℤ} (hnand : nandOnly → s.flinfo.type = .nand)
    (h : s.nandWrite offset partSize imgSize = .ok t) :
    Runs rt nandOnly s.script t.script
      ((nandWriteCommands s.device offset partSize imgSize).filter Command.isFlash) false := by
  obtain ⟨rfl, htype⟩ := nandWrite_eq_ok h
  have hnor : ¬ nandOnly := fun hn => by
    rcases htype with htype | htype <;> (rw [hnand hn] at htype; cases htype)
  have hwrites : ∀ c ∈ (if 0 < imgSize then [Command.nandWrite offset imgSize] else []),
      c.isFlash = true := by
    intro c hc
    split at hc
    · obtain rfl := List.mem_singleton.mp hc
      rfl
    · cases hc
  have herase : Runs rt nandOnly s.script _ [.nandErase offset partSize] false :=
    runs_selected s hnor s.device offset partSize
  have hall := herase.trans (runs_appendAll _ hwrites)
  rw [nandWriteCommands, List.filter_append, List.filter_eq_self.mpr hwrites]
  exact hall

/-- What stands in an `if` is run when its test holds. -/
theorem runs_ifTest {left right : Text}
    (h : Runs rt nandOnly (a ++ (ifTest left right ++ [.newline])) b fs fin) :
    Runs rt nandOnly a (b ++ ([.reserved .fi, .newline] ++ [.newline]))
      (if rt.holds left right then fs else []) (rt.holds left right && fin) := by
  obtain ⟨xs, hb, hxs⟩ := h
  refine ⟨[.ifThen (.test left right) (.ofList (.blank :: xs)), .blank], ?_, fun log => ?_⟩
  · rw [hb]
    simp only [Block.ofList, Block.tokens, Stmt.tokens, ifTest, List.append_assoc, List.append_nil]
  · have hexec : rt.exec log (.test left right) = (log ++ [(.test left right, rt.holds left right)],
      if rt.holds left right then 0 else 1) := rfl
    have htest : ∀ done, Behaves nandOnly log (log ++ [(.test left right, done)], false) [] false := by
      refine fun done => behaves_quiet false fun e he => ?_
      obtain rfl := List.mem_singleton.mp he
      rfl
    rw [run_blank, Stmt.run, hexec]
    cases rt.holds left right with
    | true =>
      have hall := (htest true).append fun _ => hxs _
      exact hall
    | false => exact htest false

theorem runs_if {var value : Text} (h : Runs rt nandOnly (s.startIf var value).script t.script fs fin) :
    Runs rt nandOnly s.script t.endIf.script (if rt.holds ('$' :: var) value then fs else [])
      (rt.holds ('$' :: var) value && fin) := runs_ifTest h

/-- Whatever becomes of the event log, the script is left behind it. -/
theorem runs_end (s : FlashScript) : Runs rt nandOnly s.script s.end.script [] true := by
  have hflash : ∀ c, Command.isHarmless c = true → (!c.isFlash) = true := fun c hc => by
    cases hbad : c.isFlash with
    | true =>
      rw [Command.isHarmless, isCritical_of_isFlash hbad] at hc
      exact hc
    | false => rfl
  set s₁ := s.echo "Erasing events_log partition ... ".toList true false with hs₁
  set s₂ := s₁.appendPlain [.cmd .sfProbe, .sep .seq, .cmd .sfEraseEvents] with hs₂
  set s₃ := s₂.echo "[ done ]".toList true false with hs₃
  have h₁ : Says rt (fun c => !c.isFlash) s.script s₁.script := (says_echo s _ _ _).mono hflash
  have h₂ : Says rt (fun c => !c.isFlash) s₁.script s₂.script :=
    says_line s₁.script [.sfProbe] .sfEraseEvents (by decide) (by simp)
  have h₃ : Says rt (fun c => !c.isFlash) s₂.script s₃.script := (says_echo s₂ _ _ _).mono hflash
  obtain ⟨xs, hb, hxs⟩ := (h₁.trans h₂).trans h₃
  refine ⟨xs ++ [.line [] (.exit 0), .blank], ?_, fun log => ?_⟩
  · rw [tokens_ofList_append, ← List.append_assoc, ← hb]
    rfl
  · obtain ⟨new, hrun, hnew⟩ := hxs log
    have hexit : (Block.ofList [.line [] (.exit 0), .blank]).run rt.exec (log ++ new) =
        (log ++ new ++ [(.exit 0, true)], true) := rfl
    rw [run_ofList_append, hrun, if_neg Bool.false_ne_true, hexit, List.append_assoc]
    refine behaves_leaving fun e he => ?_
    rcases List.mem_append.mp he with he | he
    · exact (Bool.not_eq_true' _).mp (hnew e he)
    · obtain rfl := List.mem_singleton.mp he
      rfl

end Runs

end Pack
