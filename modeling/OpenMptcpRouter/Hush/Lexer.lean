/-
From characters to commands (`parse_stream`, `done_word` in `common/hush.c`).

The reader goes through a text character by character; `Lex` is what it holds between
two of them.  The name of a variable stands between two marks in its word and is counted
in the command (`child->sp`): such a command is put together again with the values and
read a second time when it is run, and only knows the codes 0 and 1 from then on.

* `lexLine` — the tokens of a line, as `parse` takes them;
* `lex_word` — ordinary characters pile up in the current word;
* `runCommand` — `run_command`, over the commands of the board.
-/
import OpenMptcpRouter.Hush.RunList
import OpenMptcpRouter.Hush.Structured

namespace Hush

abbrev Text := List Char

/-- A simple command: its words, and how many variables they name. -/
structure Simple where
  argv : List Text := []
  sp : ℕ := 0
  deriving DecidableEq, Repr

/-- What the last character has begun. -/
inductive Mode
  | plain
  | amp
  | bar
  | dollar
  | var
  | brace
  | escape
  | single
  | comment
  | error
  deriving DecidableEq, Repr

/-- The reader between two characters. -/
structure Lex where
  toks : List (Token Simple) := []
  cmd : Simple := {}
  /-- the word so far, with backslashes in front of characters that were quoted -/
  word : Text := []
  nonnull : Bool := false
  quote : Bool := false
  mode : Mode := .plain
  /-- `FLAG_REPARSING` -/
  reparsing : Bool := false
  deriving DecidableEq

/-- `SPECIAL_VAR_SYMBOL`, the mark around the name of a variable. -/
def specialVarSymbol : Char := Char.ofNat 3

/-- `reserved_list`, without the loops. -/
def reservedWord (w : Text) : Option Reserved :=
  if w = "if".toList then some .if
  else if w = "then".toList then some .then
  else if w = "elif".toList then some .elif
  else if w = "else".toList then some .else
  else if w = "fi".toList then some .fi
  else none

/-- `b_addchr`. -/
def Lex.add (x : Lex) (c : Char) : Lex := { x with word := x.word ++ [c] }

/-- `b_addqchr`. -/
def Lex.addq (x : Lex) (c : Char) : Lex :=
  if x.quote ∧ c ∈ ['*', '?', '[', '\\'] then (x.add '\\').add c else x.add c

/-- A word without the backslashes. -/
def strip : Text → Text
  | [] => []
  | [c] => if c = '\\' then [] else [c]
  | c :: d :: cs => if c = '\\' then d :: strip cs else c :: strip (d :: cs)

/-- `done_word`.  A reserved word is one in front only, and not in a text that is read again. -/
def Lex.doneWord (x : Lex) : Lex :=
  if x.word = [] ∧ x.nonnull = false then x
  else
    match if x.reparsing then none else reservedWord x.word, x.cmd.argv with
    | some r, [] => { x with toks := x.toks ++ [.reserved r], word := [], nonnull := false }
    | _, argv =>
      { x with cmd := { x.cmd with argv := argv ++ [strip x.word] }, word := [], nonnull := false }

/-- The end of a command at a separator. -/
def Lex.doneCmd (x : Lex) (tok : Token Simple) : Lex :=
  { x with
    toks := if x.cmd.argv = [] then x.toks ++ [tok] else x.toks ++ [.cmd x.cmd, tok]
    cmd := {} }

/-- A character with nothing begun before it. -/
def Lex.plain (x : Lex) (c : Char) : Lex :=
  if x.reparsing ∧ (c = ';' ∨ c = '$' ∨ c = '&' ∨ c = '|') then x.addq c
  else if c = '\\' then { x.addq c with mode := .escape }
  else if c = '$' then { x with mode := .dollar }
  else if c = '\'' then { x with nonnull := true, mode := .single }
  else if c = '"' then { x with nonnull := true, quote := !x.quote }
  else if x.quote then x.addq c
  else if c = ' ' ∨ c = '\t' then x.doneWord
  else if c = '\n' then x.doneWord.doneCmd .newline
  else if c = ';' then x.doneWord.doneCmd (.sep .seq)
  else if c = '&' then { x.doneWord with mode := .amp }
  else if c = '|' then { x.doneWord with mode := .bar }
  else if c = '#' ∧ x.word = [] then { x with mode := .comment }
  else x.add c

/-- A variable begins: `child->sp++` and the first mark. -/
def Lex.openVar (x : Lex) : Lex :=
  { x.add specialVarSymbol with cmd := { x.cmd with sp := x.cmd.sp + 1 } }

/-- `handle_dollar`, at the character behind the dollar sign. -/
def Lex.handleDollar (x : Lex) (c : Char) : Lex :=
  if c.isAlpha then { x.openVar.add c with mode := .var }
  else if c = '?' then
    { (((x.openVar.add '$').add '?').add specialVarSymbol) with mode := .plain }
  else if c = '{' then { x.openVar with mode := .brace }
  else { x.add '$' with mode := .plain }.plain c

/-- One character. -/
def Lex.step (x : Lex) (c : Char) : Lex :=
  match x.mode with
  | .plain => x.plain c
  | .amp =>
    if c = '&' then { x.doneCmd (.sep .and) with mode := .plain } else { x with mode := .error }
  | .bar =>
    if c = '|' then { x.doneCmd (.sep .or) with mode := .plain } else { x with mode := .error }
  | .dollar => x.handleDollar c
  | .var =>
    if c.isAlphanum ∨ c = '_' then x.add c
    else { x.add specialVarSymbol with mode := .plain }.plain c
  | .brace =>
    if c = '}' then { x.add specialVarSymbol with mode := .plain } else x.add c
  | .escape => { x.addq c with mode := .plain }
  | .single => if c = '\'' then { x with mode := .plain } else x.add c
  | .comment => if c = '\n' then { x with mode := .plain }.plain c else x
  | .error => x

/-- The tokens of a line of text; `parse_string_outer` ends it with a newline.  Nothing of
a line with a syntax error is run. -/
def lexLine (text : Text) (reparsing : Bool) : List (Token Simple) :=
  let x := (text ++ ['\n']).foldl Lex.step { reparsing := reparsing }
  if x.mode = .plain then x.toks else []

/-- A character that stands for itself. -/
def IsPlain (c : Char) : Prop :=
  c ∉ ['\\', '$', '\'', '"', ' ', '\t', '\n', ';', '&', '|', '#']

instance (c : Char) : Decidable (IsPlain c) := by unfold IsPlain; infer_instance

theorem Lex.step_of_isPlain {x : Lex} {c : Char} (hm : x.mode = .plain) (hq : x.quote = false)
    (hc : IsPlain c) : x.step c = x.add c := by
  simp only [IsPlain, List.mem_cons, List.not_mem_nil, or_false, not_or] at hc
  simp [Lex.step, hm, hq, Lex.plain, hc]

/-- Ordinary characters pile up in the current word. -/
theorem lex_word {x : Lex} {w : Text} (hm : x.mode = .plain) (hq : x.quote = false)
    (hw : ∀ c ∈ w, IsPlain c) : w.foldl Lex.step x = { x with word := x.word ++ w } := by
  induction w generalizing x with
  | nil => simp
  | cons c w ih =>
    have hrest : ∀ c' ∈ w, IsPlain c' := fun c' hc' => hw c' (List.mem_cons_of_mem c hc')
    rw [List.foldl_cons, Lex.step_of_isPlain hm hq (hw c List.mem_cons_self),
      ih (x := x.add c) hm hq hrest]
    simp [Lex.add]

/-- They stand for themselves. -/
theorem strip_of_isPlain {w : Text} (hw : ∀ c ∈ w, IsPlain c) : strip w = w := by
  have hne : ∀ c ∈ w, c ≠ '\\' := by
    rintro c hc rfl
    exact absurd (hw _ hc) (by decide)
  induction w using strip.induct with
  | case1 => rfl
  | case2 => exact absurd rfl (hne '\\' List.mem_cons_self)
  | case3 c hc => rw [strip, if_neg hc]
  | case4 d cs ih => exact absurd rfl (hne '\\' List.mem_cons_self)
  | case5 c d cs hc ih =>
    rw [strip, if_neg hc, ih (fun e he => hw e (List.mem_cons_of_mem c he))
      fun e he => hne e (List.mem_cons_of_mem c he)]

/-! ### Running simple commands -/

/-- The interpreter's local variables over the state of the board. -/
structure Shell (σ : Type) where
  vars : List (Text × Text) := []
  board : σ

section Run

variable {σ : Type} (getenv : σ → Text → Option Text)
  (cmdProcess : Shell σ → List Text → Shell σ × ℤ)

/-- `is_assignment`. -/
def isAssignment : Text → Bool
  | [] => false
  | c :: cs =>
    c.isAlpha && ((cs.dropWhile fun c => c.isAlphanum || c = '_').head? = some '=' : Bool)

/-- `lookup_param`: the environment comes before the local variables. -/
def lookupParam (s : Shell σ) (name : Text) : Text :=
  ((getenv s.board name).or (s.vars.lookup name)).getD []

/-- The pieces of a word between the marks, every second one replaced by its value. -/
def insertPieces (s : Shell σ) : List Text → Text
  | [] => []
  | [w] => w
  | w :: name :: rest => w ++ lookupParam getenv s name ++ insertPieces s rest

/-- `insert_var_value`. -/
def insertVarValue (s : Shell σ) (w : Text) : Text :=
  if specialVarSymbol ∈ w then
    (insertPieces getenv s (w.splitOn specialVarSymbol)).map fun c => if c = '\n' then ' ' else c
  else w

/-- `set_local_var` of `name=value`. -/
def setLocalVar (s : Shell σ) (w : Text) : Shell σ :=
  { s with
    vars := (w.takeWhile (· ≠ '='), (w.dropWhile (· ≠ '=')).tail) ::
      s.vars.filter fun v => v.1 ≠ w.takeWhile (· ≠ '=') }

/-- The assignments in front of a command. -/
def runAssignments (s : Shell σ) (ws : List Text) : Shell σ :=
  ws.foldl (fun s w => setLocalVar s (insertVarValue getenv s w)) s

/-- `make_string`, less the newline. -/
def makeString (s : Shell σ) (ws : List Text) : Text :=
  [' '].intercalate (ws.map (insertVarValue getenv s))

/-- `run_pipe_real` for a simple command without variables. -/
def runPlain (s : Shell σ) (c : Simple) : Shell σ × ℤ :=
  let s := runAssignments getenv s (c.argv.takeWhile isAssignment)
  match c.argv.dropWhile isAssignment with
  | [] => (s, 0)
  | w :: _ => if ';' ∈ w then (s, -1) else cmdProcess s c.argv

/-- `last_return_code` after a command with code `rcode`. -/
def lastReturnCode (rcode : ℤ) : ℤ :=
  if rcode < -1 then -rcode - 2 else if rcode = 0 then 0 else 1

/-- `run_pipe_real` for a simple command.  Separators in a value are ordinary characters,
so at most one command is read again. -/
def runSimple (s : Shell σ) (c : Simple) : Shell σ × ℤ :=
  let assigned := c.argv.takeWhile isAssignment
  let rest := c.argv.dropWhile isAssignment
  if rest ≠ [] ∧ (assigned.filter (specialVarSymbol ∈ ·)).length < c.sp then
    let s := runAssignments getenv s assigned
    match lexLine (makeString getenv s rest) true with
    | .cmd c' :: _ =>
      let r := runPlain getenv cmdProcess s c'
      (r.1, lastReturnCode r.2)
    | _ => (s, 0)
  else runPlain getenv cmdProcess s c

variable {getenv cmdProcess} in
/-- A command without variables and assignments goes to `cmd_process`. -/
theorem runSimple_eq {s : Shell σ} {w : Text} {ws : List Text} (hw : isAssignment w = false)
    (hsemi : ';' ∉ w) :
    runSimple getenv cmdProcess s { argv := w :: ws } = cmdProcess s (w :: ws) := by
  simp [runSimple, runPlain, runAssignments, hw, hsemi]

variable {getenv cmdProcess} in
/-- An assignment without variables in it sets a variable. -/
theorem runSimple_assignment {s : Shell σ} {w : Text} (hw : isAssignment w = true)
    (hvar : specialVarSymbol ∉ w) :
    runSimple getenv cmdProcess s { argv := [w] } = (setLocalVar s w, 0) := by
  simp [runSimple, runPlain, runAssignments, insertVarValue, hw, hvar]

/-- `run_command`. -/
def runCommand (s : Shell σ) (text : Text) : Shell σ × ℤ :=
  if text = [] then (s, 1)
  else runString (runSimple getenv cmdProcess) true s (parse {} [] (lexLine text false))

end Run

end Hush
