/-
The command interpreter of U-Boot (`common/hush.c`): parsed lists and how they run.

A `PipeList` is what the parser hands to `run_list_real`: commands and groups, each
with the reserved word it stands behind and the separator that follows it.  Commands
are of an arbitrary type and are run by a parameter, which gives their return code;
`exit` is a command whose code is below `-1`.

* `runList` — `run_list_real`, without the loops (`for`, `while`, `until`);
* `runString` — `parse_stream_outer` over a parsed text, for `run_command` and for
  `source`;
* `runString_code` — the code that comes out of it is 0 or 1, whatever happened.
-/
import Mathlib.Algebra.Group.Int.Defs
import Mathlib.Algebra.Group.Nat.Defs
import Mathlib.Data.List.Basic

namespace Hush

/-- `pipe_style`, without `PIPE_BG`. -/
inductive Followup
  | seq
  | and
  | or
  deriving DecidableEq, Repr

/-- `reserved_style`, without the loops. -/
inductive Reserved
  | none
  | if
  | then
  | elif
  | else
  | fi
  deriving DecidableEq, Repr

mutual

/-- The program of a pipe: none (`num_progs == 0`), a command, or a group. -/
inductive Prog (κ : Type)
  | empty
  | cmd (c : κ)
  | group (pipes : PipeList κ)

/-- A list of pipes with their reserved word and their separator. -/
inductive PipeList (κ : Type)
  | nil
  | cons (rmode : Reserved) (prog : Prog κ) (followup : Followup) (rest : PipeList κ)

end

/-- `num_progs == 0`. -/
def Prog.isEmpty {κ : Type} : Prog κ → Bool
  | .empty => true
  | _ => false

/-- A pipe of a list. -/
abbrev Pipe (κ : Type) := Reserved × Prog κ × Followup

/-- The pipes in front of a list. -/
def PipeList.append {κ : Type} : List (Pipe κ) → PipeList κ → PipeList κ
  | [], rest => rest
  | (rmode, prog, followup) :: pipes, rest => .cons rmode prog followup (append pipes rest)

/-- The pipes as a list to be run. -/
def PipeList.ofList {κ : Type} (pipes : List (Pipe κ)) : PipeList κ := .append pipes .nil

theorem PipeList.append_append {κ : Type} (ps qs : List (Pipe κ)) (rest : PipeList κ) :
    PipeList.append (ps ++ qs) rest = .append ps (.append qs rest) := by
  induction ps with
  | nil => rfl
  | cons p ps ih =>
    obtain ⟨rmode, prog, followup⟩ := p
    rw [List.cons_append, PipeList.append, PipeList.append, ih]

/-- The local variables of `run_list_real`; no `skipMore` is `RES_XXXX`. -/
structure Loop where
  rcode : ℤ := 0
  flagSkip : Bool := true
  ifCode : ℤ := 0
  nextIfCode : ℤ := 0
  skipMore : Option Reserved := none

/-- The rest of the line is skipped: `a ||` has succeeded or `a &&` has failed. -/
def skips (rcode : ℤ) (followup : Followup) : Bool :=
  decide (rcode = 0 ∧ followup = .or ∨ rcode ≠ 0 ∧ followup = .and)

section Run

variable {σ κ : Type} (exec : σ → κ → σ × ℤ)

mutual

/-- `run_pipe_real`; it is not called for an empty pipe. -/
def runProg (s : σ) : Prog κ → σ × ℤ
  | .empty => (s, 0)
  | .cmd c => exec s c
  | .group pipes => runList s {} pipes

/-- `run_list_real`. -/
def runList (s : σ) (l : Loop) : PipeList κ → σ × ℤ
  | .nil => (s, l.rcode)
  | .cons rmode prog followup rest =>
    if l.skipMore = some rmode ∧ l.flagSkip then
      runList s { l with flagSkip := decide (followup ≠ .seq) } rest
    else
      let ifCode := if rmode = .then ∨ rmode = .else then l.nextIfCode else l.ifCode
      let l := { l with flagSkip := true, skipMore := none, ifCode := ifCode }
      if rmode = .then ∧ ifCode ≠ 0 then runList s l rest
      else if rmode = .else ∧ ifCode = 0 then runList s l rest
      else if rmode = .elif ∧ ifCode = 0 then (s, l.rcode)
      else
        if prog.isEmpty then runList s l rest
        else
          let r := runProg s prog
          if r.2 < -1 then (r.1, -2)
          else
            runList r.1
              { l with
                rcode := r.2
                nextIfCode := if rmode = .if ∨ rmode = .elif then r.2 else l.nextIfCode
                skipMore := if skips r.2 followup then some rmode else none } rest

end

/-- `parse_stream_outer` over the lines of a text; `code` is that of the line before.
With `once` (`FLAG_EXIT_FROM_LOOP`) it leaves after the first line, otherwise at the
end of the text, where the empty list is run and returns 0. -/
def runLines (once : Bool) (s : σ) : List (PipeList κ) → σ × ℤ
  | [] => (s, 0)
  | line :: lines =>
    let r := runList exec s {} line
    if r.2 = -2 then (r.1, 0)
    else if once then r
    else runLines once r.1 lines

/-- `parse_string_outer`: `(code != 0) ? 1 : 0`. -/
def runString (once : Bool) (s : σ) (lines : List (PipeList κ)) : σ × ℤ :=
  let r := runLines exec once s lines
  (r.1, if r.2 ≠ 0 then 1 else 0)

/-- `run_command` and `source` know two codes only, and neither is negative. -/
theorem runString_code (once : Bool) (s : σ) (lines : List (PipeList κ)) :
    (runString exec once s lines).2 = 0 ∨ (runString exec once s lines).2 = 1 := by
  rw [runString]
  dsimp only
  split
  · exact Or.inr rfl
  · exact Or.inl rfl

end Run

end Hush
