/-
Scripts as the parser of `hush` reads them, and what they mean.

`parse` follows `parse_stream` and `reserved_word` over tokens in which the words of a
simple command are already one: it keeps a context for every open `if` and cuts the
text into the lists that are run one after the other.

`Stmt` and `Block` are scripts with their structure in sight, `Block.run` says directly
what they do.  A line runs from left to right; where `a ||` succeeds or `a &&` fails,
everything up to the next sequence separator is skipped, however far that is.

* `parse_block` — the parser finds the structure of a script again;
* `runString_parse` — running the parsed script with `run_list_real` is `Block.run`.
-/
import OpenMptcpRouter.Hush.RunList

namespace Hush

/-! ### The parser -/

/-- What a script is made of. -/
inductive Token (κ : Type)
  | cmd (c : κ)
  | sep (followup : Followup)
  | newline
  | reserved (r : Reserved)
  deriving DecidableEq, Repr

/-- `struct p_context`; `old` lists the words `old_flag` allows next. -/
structure Ctx (κ : Type) where
  pipes : List (Pipe κ) := []
  cur : Prog κ := .empty
  w : Reserved := .none
  old : List Reserved := []

variable {κ : Type}

/-- `done_pipe`. -/
def Ctx.donePipe (c : Ctx κ) (followup : Followup) : Ctx κ :=
  { c with pipes := c.pipes ++ [(c.w, c.cur, followup)], cur := .empty }

/-- The words that may follow a reserved word. -/
def followers : Reserved → List Reserved
  | .if => [.then]
  | .then => [.elif, .else, .fi]
  | .elif => [.then]
  | .else => [.fi]
  | _ => []

/-- `parse_stream`, called again by `parse_stream_outer` for every line.  A syntax error
gives up the rest of the text. -/
def parse : Ctx κ → List (Ctx κ) → List (Token κ) → List (PipeList κ)
  | c, _, [] => if c.old = [] then [.ofList (c.donePipe .seq).pipes] else []
  | c, st, .newline :: ts =>
    if c.w = .none then .ofList ((c.donePipe .seq).donePipe .seq).pipes :: parse {} [] ts
    else parse (c.donePipe .seq) st ts
  | c, st, .sep followup :: ts => parse (c.donePipe followup) st ts
  | c, st, .cmd k :: ts => if c.cur.isEmpty then parse { c with cur := .cmd k } st ts else []
  | c, st, .reserved r :: ts =>
    if r = .if then
      if c.cur.isEmpty then parse { w := .if, old := followers .if } (c :: st) ts else []
    else if c.cur.isEmpty ∧ c.w ≠ .none ∧ r ∈ c.old then
      let c := { c with w := r, old := followers r }
      if r = .fi then
        match st with
        | [] => []
        | outer :: st => parse { outer with cur := .group (.ofList (c.donePipe .seq).pipes) } st ts
      else parse c st ts
    else []

/-! ### Structured scripts -/

mutual

/-- A line, an empty line, or an `if`. -/
inductive Stmt (κ : Type)
  | blank
  | line (init : List (κ × Followup)) (last : κ)
  | ifThen (cond : κ) (body : Block κ)
  | ifElse (cond : κ) (body other : Block κ)

/-- Statements one after the other. -/
inductive Block (κ : Type)
  | nil
  | cons (stmt : Stmt κ) (rest : Block κ)

end

/-- The block of a list of statements. -/
def Block.ofList : List (Stmt κ) → Block κ
  | [] => .nil
  | stmt :: stmts => .cons stmt (ofList stmts)

/-- The tokens of commands with their separators. -/
def lineTokens (cs : List (κ × Followup)) : List (Token κ) :=
  cs.flatMap fun p => [.cmd p.1, .sep p.2]

mutual

/-- The text of a statement. -/
def Stmt.tokens : Stmt κ → List (Token κ)
  | .blank => [.newline]
  | .line init last => lineTokens init ++ [.cmd last, .newline]
  | .ifThen cond body =>
    [.reserved .if, .cmd cond, .sep .seq, .reserved .then, .newline] ++ body.tokens
      ++ [.reserved .fi, .newline]
  | .ifElse cond body other =>
    [.reserved .if, .cmd cond, .sep .seq, .reserved .then, .newline] ++ body.tokens
      ++ [.reserved .else, .newline] ++ other.tokens ++ [.reserved .fi, .newline]

/-- The text of a block. -/
def Block.tokens : Block κ → List (Token κ)
  | .nil => []
  | .cons stmt rest => stmt.tokens ++ rest.tokens

end

theorem tokens_ofList_append (xs ys : List (Stmt κ)) :
    (Block.ofList (xs ++ ys)).tokens = (Block.ofList xs).tokens ++ (Block.ofList ys).tokens := by
  induction xs with
  | nil => rfl
  | cons stmt xs ih =>
    rw [List.cons_append, Block.ofList, Block.ofList, Block.tokens, Block.tokens, ih,
      List.append_assoc]

/-- The pipes of commands with their separators. -/
def linePipes (m : Reserved) (cs : List (κ × Followup)) : List (Pipe κ) :=
  cs.map fun p => (m, .cmd p.1, p.2)

mutual

/-- The pipes of a statement behind the reserved word `m`. -/
def Stmt.pipes (m : Reserved) : Stmt κ → List (Pipe κ)
  | .blank => [(m, .empty, .seq)]
  | .line init last => linePipes m (init ++ [(last, .seq)])
  | .ifThen cond body =>
    [(m, .group (.ofList
      ([(.if, .cmd cond, .seq), (.then, .empty, .seq)] ++ body.pipes .then
        ++ [(.fi, .empty, .seq)])), .seq)]
  | .ifElse cond body other =>
    [(m, .group (.ofList
      ([(.if, .cmd cond, .seq), (.then, .empty, .seq)] ++ body.pipes .then
        ++ [(.else, .empty, .seq)] ++ other.pipes .else ++ [(.fi, .empty, .seq)])), .seq)]

/-- The pipes of a block. -/
def Block.pipes (m : Reserved) : Block κ → List (Pipe κ)
  | .nil => []
  | .cons stmt rest => stmt.pipes m ++ rest.pipes m

end

/-- The lists the statements of a block are run as. -/
def Block.lines : Block κ → List (PipeList κ)
  | .nil => [.ofList [(.none, .empty, .seq)]]
  | .cons stmt rest => .ofList (stmt.pipes .none ++ [(.none, .empty, .seq)]) :: rest.lines

theorem parse_lineTokens {cs : List (κ × Followup)} {c : Ctx κ} {st : List (Ctx κ)}
    {ts : List (Token κ)} (hc : c.cur = .empty) :
    parse c st (lineTokens cs ++ ts) = parse { c with pipes := c.pipes ++ linePipes c.w cs } st ts := by
  induction cs generalizing c with
  | nil => simp [lineTokens, linePipes]
  | cons p cs ih =>
    have hstep : lineTokens (p :: cs) ++ ts = .cmd p.1 :: .sep p.2 :: (lineTokens cs ++ ts) := by
      simp [lineTokens]
    rw [hstep, parse, if_pos (by rw [hc]; rfl), parse, ih rfl]
    simp [Ctx.donePipe, linePipes, hc]

/-- Behind a reserved word, the tokens are read as the pipes. -/
def Reads (toks : List (Token κ)) (pipes : Reserved → List (Pipe κ)) : Prop :=
  ∀ (c : Ctx κ) (st : List (Ctx κ)) (ts : List (Token κ)), c.cur = .empty → c.w ≠ .none →
    parse c st (toks ++ ts) = parse { c with pipes := c.pipes ++ pipes c.w } st ts

/-- The condition of an `if` opens a context and leaves it behind `then`. -/
theorem parse_cond {cond : κ} {c : Ctx κ} {st : List (Ctx κ)} {ts : List (Token κ)}
    (hc : c.cur = .empty) :
    parse c st ([.reserved .if, .cmd cond, .sep .seq, .reserved .then, .newline] ++ ts) =
      parse
        { pipes := [(.if, .cmd cond, .seq), (.then, .empty, .seq)]
          w := .then
          old := followers .then } (c :: st) ts := by
  simp [parse, hc, Prog.isEmpty, followers, Ctx.donePipe]

/-- The closing `fi` makes the open list a group of the context around it. -/
theorem parse_fi {c outer : Ctx κ} {st : List (Ctx κ)} {ts : List (Token κ)}
    (hc : c.cur = .empty) (hw : c.w ≠ .none) (hold : .fi ∈ c.old) :
    parse c (outer :: st) (.reserved .fi :: ts) =
      parse { outer with cur := .group (.ofList (c.pipes ++ [(.fi, .empty, .seq)])) } st ts := by
  simp [parse, hc, hw, hold, Prog.isEmpty, Ctx.donePipe]

theorem fi_append (ts : List (Token κ)) :
    [.reserved .fi, .newline] ++ ts = .reserved .fi :: .newline :: ts := rfl

theorem parse_ifThen {cond : κ} {body : Block κ} {c : Ctx κ} {st : List (Ctx κ)}
    {ts : List (Token κ)} (hbody : Reads body.tokens fun m => body.pipes m) (hc : c.cur = .empty) :
    parse c st ([.reserved .if, .cmd cond, .sep .seq, .reserved .then, .newline] ++ body.tokens
        ++ .reserved .fi :: ts) =
      parse
        { c with
          cur := .group (.ofList
            ([(.if, .cmd cond, .seq), (.then, .empty, .seq)] ++ body.pipes .then
              ++ [(.fi, .empty, .seq)])) } st ts := by
  rw [List.append_assoc, parse_cond hc, hbody _ _ _ rfl (by simp), parse_fi rfl (by simp)
    (by simp [followers])]

theorem parse_ifElse {cond : κ} {body other : Block κ} {c : Ctx κ} {st : List (Ctx κ)}
    {ts : List (Token κ)} (hbody : Reads body.tokens fun m => body.pipes m)
    (hother : Reads other.tokens fun m => other.pipes m) (hc : c.cur = .empty) :
    parse c st ([.reserved .if, .cmd cond, .sep .seq, .reserved .then, .newline] ++ body.tokens
        ++ [.reserved .else, .newline] ++ other.tokens ++ .reserved .fi :: ts) =
      parse
        { c with
          cur := .group (.ofList
            ([(.if, .cmd cond, .seq), (.then, .empty, .seq)] ++ body.pipes .then
              ++ [(.else, .empty, .seq)] ++ other.pipes .else ++ [(.fi, .empty, .seq)])) } st ts := by
  have helse : ∀ {d : Ctx κ} {st : List (Ctx κ)} {ts : List (Token κ)}, d.cur = .empty →
      d.w ≠ .none → .else ∈ d.old →
      parse d st ([.reserved .else, .newline] ++ ts) =
        parse
          { d with
            pipes := d.pipes ++ [(.else, .empty, .seq)], w := .else, old := followers .else }
          st ts := by
    intro d st ts hd hw hold
    simp [parse, hd, hw, hold, Prog.isEmpty, Ctx.donePipe]
  rw [List.append_assoc, List.append_assoc, List.append_assoc, parse_cond hc,
    hbody _ _ _ rfl (by simp), helse rfl (by simp) (by simp [followers]),
    hother _ _ _ rfl (by simp), parse_fi rfl (by simp) (by simp [followers])]

mutual

/-- Behind a reserved word, a statement adds its pipes to the open list. -/
theorem reads_stmt : ∀ stmt : Stmt κ, Reads stmt.tokens fun m => stmt.pipes m
  | .blank, c, st, ts, hc, hw => by
    rw [Stmt.tokens, List.singleton_append, parse, if_neg hw]
    simp [Ctx.donePipe, Stmt.pipes, hc]
  | .line init last, c, st, ts, hc, hw => by
    rw [Stmt.tokens, List.append_assoc, parse_lineTokens hc, List.cons_append,
      List.singleton_append, parse, if_pos (by rw [hc]; rfl), parse, if_neg hw]
    simp [Ctx.donePipe, Stmt.pipes, linePipes, hc]
  | .ifThen cond body, c, st, ts, hc, hw => by
    rw [Stmt.tokens, List.append_assoc, fi_append, parse_ifThen (reads_block body) hc, parse,
      if_neg hw]
    simp [Ctx.donePipe, Stmt.pipes, hc]
  | .ifElse cond body other, c, st, ts, hc, hw => by
    rw [Stmt.tokens, List.append_assoc, fi_append, parse_ifElse (reads_block body) (reads_block other) hc, parse,
      if_neg hw]
    simp [Ctx.donePipe, Stmt.pipes, hc]

theorem reads_block : ∀ block : Block κ, Reads block.tokens fun m => block.pipes m
  | .nil, c, st, ts, hc, hw => by
    simp [Block.tokens, Block.pipes]
  | .cons stmt rest, c, st, ts, hc, hw => by
    rw [Block.tokens, List.append_assoc, reads_stmt stmt c st _ hc hw,
      reads_block rest { c with pipes := c.pipes ++ stmt.pipes c.w } st ts hc hw]
    simp [Block.pipes]

end

/-- At the top level, a statement is a list of its own. -/
theorem parse_top (stmt : Stmt κ) (ts : List (Token κ)) :
    parse {} [] (stmt.tokens ++ ts) =
      .ofList (stmt.pipes .none ++ [(.none, .empty, .seq)]) :: parse {} [] ts := by
  cases stmt with
  | blank => simp [Stmt.tokens, parse, Ctx.donePipe, Stmt.pipes]
  | line init last =>
    rw [Stmt.tokens, List.append_assoc, parse_lineTokens rfl, List.cons_append,
      List.singleton_append, parse, if_pos (by simp [Prog.isEmpty]), parse, if_pos rfl]
    simp [Ctx.donePipe, Stmt.pipes, linePipes]
  | ifThen cond body =>
    rw [Stmt.tokens, List.append_assoc, fi_append, parse_ifThen (reads_block body) rfl, parse,
      if_pos rfl]
    simp [Ctx.donePipe, Stmt.pipes]
  | ifElse cond body other =>
    rw [Stmt.tokens, List.append_assoc, fi_append, parse_ifElse (reads_block body) (reads_block other) rfl, parse,
      if_pos rfl]
    simp [Ctx.donePipe, Stmt.pipes]

/-- **The parser finds the structure of a script again.** -/
theorem parse_block : ∀ block : Block κ, parse {} [] block.tokens = block.lines
  | .nil => rfl
  | .cons stmt rest => by rw [Block.tokens, parse_top, parse_block rest, Block.lines]

/-! ### What a script does -/

section Run

variable {σ : Type} (exec : σ → κ → σ × ℤ)

/-- A line, from a state in which commands are skipped or not; the result says whether
the script has been left. -/
def runLine (s : σ) : (skipping : Bool) → List (κ × Followup) → σ × Bool
  | _, [] => (s, false)
  | true, (_, followup) :: cs => runLine s (decide (followup ≠ .seq)) cs
  | false, (c, followup) :: cs =>
    let r := exec s c
    if r.2 < -1 then (r.1, true) else runLine r.1 (skips r.2 followup) cs

mutual

/-- A statement; the result says whether the script has been left. -/
def Stmt.run (s : σ) : Stmt κ → σ × Bool
  | .blank => (s, false)
  | .line init last => runLine exec s false (init ++ [(last, .seq)])
  | .ifThen cond body =>
    let r := exec s cond
    if r.2 < -1 then (r.1, true) else if r.2 = 0 then body.run r.1 else (r.1, false)
  | .ifElse cond body other =>
    let r := exec s cond
    if r.2 < -1 then (r.1, true) else if r.2 = 0 then body.run r.1 else other.run r.1

/-- The statements of a block, until the script is left. -/
def Block.run (s : σ) : Block κ → σ × Bool
  | .nil => (s, false)
  | .cons stmt rest =>
    let r := stmt.run s
    if r.2 then r else rest.run r.1

end

/-- Statements one after the other, the later ones unless the script has been left. -/
theorem run_ofList_append (xs ys : List (Stmt κ)) (s : σ) :
    (Block.ofList (xs ++ ys)).run exec s =
      if ((Block.ofList xs).run exec s).2 then (Block.ofList xs).run exec s
      else (Block.ofList ys).run exec ((Block.ofList xs).run exec s).1 := by
  induction xs generalizing s with
  | nil => rfl
  | cons stmt xs ih =>
    rw [List.cons_append, Block.ofList, Block.ofList, Block.run, Block.run, ih]
    cases hleft : (stmt.run exec s).2 with
    | true => simp only [if_true, hleft]
    | false => simp only [Bool.false_eq_true, if_false]

theorem run_singleton (stmt : Stmt κ) (s : σ) :
    (Block.ofList [stmt]).run exec s = stmt.run exec s := by
  rw [Block.ofList, Block.ofList, Block.run]
  rcases stmt.run exec s with ⟨s', _ | _⟩
  · rfl
  · rfl

/-- An empty line behind a statement. -/
theorem run_blank (stmt : Stmt κ) (s : σ) :
    (Block.ofList [stmt, .blank]).run exec s = stmt.run exec s := by
  rw [Block.ofList, Block.run]
  rcases stmt.run exec s with ⟨s', _ | _⟩
  · rfl
  · rfl

/-- Nothing is being skipped. -/
def Loop.Fresh (l : Loop) : Prop := l.skipMore = none ∨ l.flagSkip = false

/-- Pipes behind `m` are run. -/
def Loop.Active (l : Loop) (m : Reserved) : Prop :=
  m = .none ∨ m = .then ∧ l.nextIfCode = 0 ∨ m = .else ∧ l.nextIfCode ≠ 0

/-- Pipes behind `m` are passed over. -/
def Loop.Passive (l : Loop) (m : Reserved) : Prop :=
  m = .then ∧ l.nextIfCode ≠ 0 ∨ m = .else ∧ l.nextIfCode = 0

/-- The loop can go on from `l'` as from `l`. -/
structure Loop.Ok (l l' : Loop) : Prop where
  fresh : l'.Fresh
  next : l'.nextIfCode = l.nextIfCode
  code : -1 ≤ l'.rcode

theorem Loop.Ok.active {l l' : Loop} {m : Reserved} (h : l.Ok l') (ha : l.Active m) :
    l'.Active m := by
  rw [Loop.Active, h.next]
  exact ha

theorem Loop.Ok.trans {l l' l'' : Loop} (h : l.Ok l') (h' : l'.Ok l'') : l.Ok l'' :=
  ⟨h'.fresh, h'.next.trans h.next, h'.code⟩

/-- What the pipes amount to: they leave the list, or the rest of it is run. -/
def Does (pipes : List (Pipe κ)) (l : Loop) (s : σ) (r : σ × Bool) : Prop :=
  ∀ rest : PipeList κ,
    if r.2 then runList exec s l (.append pipes rest) = (r.1, -2)
    else ∃ l', l.Ok l' ∧ runList exec s l (.append pipes rest) = runList exec r.1 l' rest

/-- What running a list amounts to. -/
def Returns (pipes : PipeList κ) (l : Loop) (s : σ) (r : σ × Bool) : Prop :=
  if r.2 then runList exec s l pipes = (r.1, -2)
  else ∃ code, -1 ≤ code ∧ runList exec s l pipes = (r.1, code)

variable {exec} {l : Loop} {s : σ} {m : Reserved} {prog : Prog κ} {followup : Followup}
  {rest : PipeList κ}

/-- The loop goes past a pipe that is being skipped. -/
theorem runList_skip (hm : l.skipMore = some m) (hf : l.flagSkip = true) :
    runList exec s l (.cons m prog followup rest)
      = runList exec s { l with flagSkip := decide (followup ≠ .seq) } rest := by
  rw [runList, if_pos ⟨hm, hf⟩]

theorem Loop.Fresh.not_skip (h : l.Fresh) : ¬ (l.skipMore = some m ∧ l.flagSkip = true) := by
  rintro ⟨hm, hf⟩
  rcases h with h | h
  · simp [h] at hm
  · simp [h] at hf

/-- A pipe in a branch that is not taken. -/
theorem runList_passive (hl : l.Fresh) (hp : l.Passive m) :
    runList exec s l (.cons m prog followup rest)
      = runList exec s
          { l with flagSkip := true, skipMore := none, ifCode := l.nextIfCode } rest := by
  rw [runList, if_neg hl.not_skip]
  rcases hp with ⟨rfl, hn⟩ | ⟨rfl, hn⟩
  · simp [hn]
  · simp [hn]

/-- A pipe without a program. -/
theorem runList_empty (hl : l.Fresh) (ha : l.Active m) (hc : -1 ≤ l.rcode) :
    ∃ l', l.Ok l' ∧
      runList exec s l (.cons m .empty followup rest) = runList exec s l' rest := by
  rw [runList, if_neg hl.not_skip]
  rcases ha with rfl | ⟨rfl, hn⟩ | ⟨rfl, hn⟩
  all_goals
    refine ⟨_, ?_, by simp [*, Prog.isEmpty]; rfl⟩
    exact ⟨Or.inl rfl, by simp [*], hc⟩

/-- A pipe that is run. -/
theorem runList_run (s : σ) (followup : Followup) (rest : PipeList κ) (hl : l.Fresh)
    (ha : l.Active m) (hp : prog.isEmpty = false) :
    ∃ ifCode, runList exec s l (.cons m prog followup rest) =
      if (runProg exec s prog).2 < -1 then ((runProg exec s prog).1, -2)
      else
        runList exec (runProg exec s prog).1
          { rcode := (runProg exec s prog).2
            flagSkip := true
            ifCode := ifCode
            nextIfCode := l.nextIfCode
            skipMore := if skips (runProg exec s prog).2 followup then some m else none } rest := by
  rw [runList, if_neg hl.not_skip]
  rcases ha with rfl | ⟨rfl, hn⟩ | ⟨rfl, hn⟩
  all_goals exact ⟨_, by simp [*]; rfl⟩

/-- Pipes one after the other. -/
theorem Does.append {ps qs : List (Pipe κ)} {r r' : σ × Bool} (h : Does exec ps l s r)
    (h' : r.2 = false → ∀ l', l.Ok l' → Does exec qs l' r.1 r') :
    Does exec (ps ++ qs) l s (if r.2 then r else r') := by
  intro rest
  have hps := h (.append qs rest)
  rw [PipeList.append_append]
  by_cases hleft : r.2 = true
  · rw [if_pos hleft] at hps
    rw [if_pos hleft, if_pos hleft]
    exact hps
  rw [if_neg hleft] at hps
  obtain ⟨l', hok, hrun⟩ := hps
  have hqs := h' (by simpa using hleft) l' hok rest
  rw [if_neg hleft, hrun]
  split
  · rename_i hleft'
    rwa [if_pos hleft'] at hqs
  · rename_i hleft'
    rw [if_neg hleft'] at hqs
    obtain ⟨l'', hok', hrun'⟩ := hqs
    exact ⟨l'', hok.trans hok', hrun'⟩

/-- A branch that is not taken does nothing. -/
theorem does_passive {ps : List (Pipe κ)} (hps : ∀ p ∈ ps, p.1 = m) (hl : l.Fresh)
    (hp : l.Passive m) (hc : -1 ≤ l.rcode) : Does exec ps l s (s, false) := by
  intro rest
  rw [if_neg (by simp)]
  induction ps generalizing l with
  | nil => exact ⟨l, ⟨hl, rfl, hc⟩, rfl⟩
  | cons p ps ih =>
    obtain ⟨rmode, prog, followup⟩ := p
    obtain rfl : rmode = m := hps _ List.mem_cons_self
    obtain ⟨l', hok, hrun⟩ := ih
      (l := { l with flagSkip := true, skipMore := none, ifCode := l.nextIfCode })
      (fun p hp => hps p (List.mem_cons_of_mem _ hp)) (Or.inl rfl) hp hc
    refine ⟨l', ⟨hok.fresh, hok.next, hok.code⟩, ?_⟩
    rw [PipeList.append, runList_passive hl hp]
    exact hrun

/-- Whether the loop is skipping pipes behind `m`. -/
def Loop.Skips (l : Loop) (m : Reserved) (skipping : Bool) : Prop :=
  if skipping then l.skipMore = some m ∧ l.flagSkip = true else l.Fresh

/-- One command of a line: it is skipped, or it leaves the list, or the loop goes on. -/
theorem runList_cmd {skipping : Bool} (s : σ) (c : κ) (followup : Followup) (rest : PipeList κ)
    (ha : l.Active m) (hs : l.Skips m skipping) (hc : -1 ≤ l.rcode) :
    (skipping = false ∧ (exec s c).2 < -1 ∧
      runList exec s l (.cons m (.cmd c) followup rest) = ((exec s c).1, -2)) ∨
    ∃ l' s' skipping', l'.nextIfCode = l.nextIfCode ∧ l'.Skips m skipping' ∧ -1 ≤ l'.rcode ∧
      runList exec s l (.cons m (.cmd c) followup rest) = runList exec s' l' rest ∧
      (skipping = true ∧ s' = s ∧ skipping' = decide (followup ≠ .seq) ∨
        skipping = false ∧ ¬ (exec s c).2 < -1 ∧ s' = (exec s c).1 ∧
          skipping' = skips (exec s c).2 followup) := by
  cases skipping with
  | true =>
    obtain ⟨hm, hf⟩ : l.skipMore = some m ∧ l.flagSkip = true := by simpa [Loop.Skips] using hs
    refine Or.inr ⟨{ l with flagSkip := decide (followup ≠ .seq) }, s, decide (followup ≠ .seq),
      rfl, ?_, hc, runList_skip hm hf, Or.inl ⟨rfl, rfl, rfl⟩⟩
    rw [Loop.Skips]
    split
    · rename_i h
      exact ⟨hm, h⟩
    · rename_i h
      exact Or.inr (by simpa using h)
  | false =>
    have hl : l.Fresh := by simpa [Loop.Skips] using hs
    have hp : (Prog.cmd c).isEmpty = false := rfl
    obtain ⟨ifCode, hrun⟩ := runList_run s followup rest hl ha hp
    rw [runProg] at hrun
    by_cases hexit : (exec s c).2 < -1
    · rw [if_pos hexit] at hrun
      exact Or.inl ⟨rfl, hexit, hrun⟩
    · rw [if_neg hexit] at hrun
      refine Or.inr ⟨_, _, _, ?_, ?_, ?_, hrun, Or.inr ⟨rfl, hexit, rfl, rfl⟩⟩
      · rfl
      · rw [Loop.Skips]
        split
        · rename_i h
          exact ⟨rfl, rfl⟩
        · rename_i h
          exact Or.inl rfl
      · show -1 ≤ (exec s c).2
        omega

/-- A line of commands. -/
theorem does_line {cs : List (κ × Followup)} {last : κ} (hl : l.Fresh) (ha : l.Active m)
    (hc : -1 ≤ l.rcode) :
    Does exec (linePipes m (cs ++ [(last, .seq)])) l s
      (runLine exec s false (cs ++ [(last, .seq)])) := by
  suffices h : ∀ (cs : List (κ × Followup)) (skipping : Bool) (l : Loop) (s : σ), l.Active m →
      l.Skips m skipping → -1 ≤ l.rcode →
      Does exec (linePipes m (cs ++ [(last, .seq)])) l s
        (runLine exec s skipping (cs ++ [(last, .seq)])) from
    h cs false l s ha (by simpa [Loop.Skips] using hl) hc
  -- the induction goes along the line, for a loop that skips or runs
  intro cs
  induction cs with
  | nil =>
    intro skipping l s ha hs hc rest
    rcases runList_cmd s last .seq rest ha hs hc
      with ⟨rfl, hexit, hrun⟩ | ⟨l', s', skipping', hnext, hs', hc', hrun, hcase⟩
    · rw [List.nil_append, runLine, if_pos hexit, if_pos rfl]
      exact hrun
    · have hline : runLine exec s skipping [(last, .seq)] = (s', false) ∧ skipping' = false := by
        rcases hcase with ⟨rfl, rfl, rfl⟩ | ⟨rfl, hexit, rfl, rfl⟩
        · exact ⟨rfl, rfl⟩
        · rw [runLine, if_neg hexit]
          exact ⟨rfl, by simp [skips]⟩
      obtain ⟨hline, rfl⟩ := hline
      rw [List.nil_append, hline, if_neg (by simp)]
      exact ⟨l', ⟨by simpa [Loop.Skips] using hs', hnext, hc'⟩, hrun⟩
  | cons p cs ih =>
    obtain ⟨c, followup⟩ := p
    intro skipping l s ha hs hc rest
    rcases runList_cmd s c followup (.append (linePipes m (cs ++ [(last, .seq)])) rest) ha hs hc
      with ⟨rfl, hexit, hrun⟩ | ⟨l', s', skipping', hnext, hs', hc', hrun, hcase⟩
    · rw [List.cons_append, runLine, if_pos hexit, if_pos rfl]
      exact hrun
    · have hline : runLine exec s skipping ((c, followup) :: (cs ++ [(last, .seq)]))
          = runLine exec s' skipping' (cs ++ [(last, .seq)]) := by
        rcases hcase with ⟨rfl, rfl, rfl⟩ | ⟨rfl, hexit, rfl, rfl⟩
        · rfl
        · rw [runLine, if_neg hexit]
      have hrest := ih skipping' l' s' (by rw [Loop.Active, hnext]; exact ha) hs' hc' rest
      rw [List.cons_append, hline]
      have hcons : runList exec s l
          (.append (linePipes m ((c, followup) :: (cs ++ [(last, .seq)]))) rest)
          = runList exec s' l' (.append (linePipes m (cs ++ [(last, .seq)])) rest) := hrun
      rw [hcons]
      split
      · rename_i hleft
        rwa [if_pos hleft] at hrest
      · rename_i hleft
        rw [if_neg hleft] at hrest
        obtain ⟨l'', hok, hrun'⟩ := hrest
        exact ⟨l'', ⟨hok.fresh, hok.next.trans hnext, hok.code⟩, hrun'⟩

theorem does_blank (hl : l.Fresh) (ha : l.Active m) (hc : -1 ≤ l.rcode) :
    Does exec [(m, .empty, .seq)] l s (s, false) := by
  intro rest
  rw [if_neg (by simp)]
  exact runList_empty hl ha hc

/-- A list that ends in an empty pipe which is reached in any case. -/
theorem returns_of_does {ps : List (Pipe κ)} {r : σ × Bool} (hm : m = .none ∨ m = .fi)
    (h : Does exec ps l s r) :
    Returns exec (.ofList (ps ++ [(m, .empty, .seq)])) l s r := by
  have hps := h (.ofList [(m, .empty, .seq)])
  rw [Returns, PipeList.ofList, PipeList.append_append]
  split
  · rename_i hleft
    rw [if_pos hleft] at hps
    exact hps
  · rename_i hleft
    rw [if_neg hleft] at hps
    obtain ⟨l', hok, hrun⟩ := hps
    refine ⟨l'.rcode, hok.code, hrun.trans ?_⟩
    rw [PipeList.ofList, PipeList.append, PipeList.append, runList, if_neg hok.fresh.not_skip]
    rcases hm with rfl | rfl
    · simp [Prog.isEmpty, runList]
    · simp [Prog.isEmpty, runList]

/-- A group is run as a list of its own. -/
theorem does_group {pipes : PipeList κ} {r : σ × Bool} (hl : l.Fresh) (ha : l.Active m)
    (h : Returns exec pipes {} s r) : Does exec [(m, .group pipes, .seq)] l s r := by
  intro rest
  have hp : (Prog.group pipes).isEmpty = false := rfl
  obtain ⟨ifCode, hrun⟩ := runList_run s .seq rest hl ha hp
  rw [runProg] at hrun
  rw [Returns] at h
  split
  · rename_i hleft
    rw [if_pos hleft] at h
    rw [h, if_pos (by simp)] at hrun
    exact hrun
  · rename_i hleft
    rw [if_neg hleft] at h
    obtain ⟨code, hcode, h⟩ := h
    rw [h, if_neg (by simpa using hcode)] at hrun
    refine ⟨_, ⟨Or.inl ?_, ?_, ?_⟩, hrun⟩
    · simp [skips]
    · rfl
    · exact hcode

/-- The condition of an `if` decides which branch is run. -/
theorem runList_if {cond : κ} :
    runList exec s {} (.cons .if (.cmd cond) .seq rest) =
      if (exec s cond).2 < -1 then ((exec s cond).1, -2)
      else
        runList exec (exec s cond).1
          { rcode := (exec s cond).2, nextIfCode := (exec s cond).2 } rest := by
  rw [runList]
  simp [Prog.isEmpty, runProg, skips]

theorem pipes_rmode (stmt : Stmt κ) : ∀ p ∈ stmt.pipes m, p.1 = m := by
  cases stmt with
  | line init last =>
    intro p hp
    rw [Stmt.pipes, linePipes, List.mem_map] at hp
    obtain ⟨q, _, rfl⟩ := hp
    rfl
  | _ => simp [Stmt.pipes]

theorem block_pipes_rmode : ∀ (block : Block κ), ∀ p ∈ block.pipes m, p.1 = m
  | .nil => by simp [Block.pipes]
  | .cons stmt rest => by
    intro p hp
    rw [Block.pipes, List.mem_append] at hp
    rcases hp with hp | hp
    · exact pipes_rmode stmt p hp
    · exact block_pipes_rmode rest p hp

/-- The pipes behind `then` or `else`, the line end after the word included. -/
def branch (m : Reserved) (block : Block κ) : List (Pipe κ) := (m, .empty, .seq) :: block.pipes m

theorem does_branch {block : Block κ} (hl : l.Fresh) (ha : l.Active m) (hc : -1 ≤ l.rcode)
    (h : ∀ l', l.Ok l' → Does exec (block.pipes m) l' s (block.run exec s)) :
    Does exec (branch m block) l s (block.run exec s) :=
  (does_blank hl ha hc).append fun _ l' hok => h l' hok

theorem does_branch_passive (block : Block κ) (s : σ) (hl : l.Fresh) (hp : l.Passive m)
    (hc : -1 ≤ l.rcode) : Does exec (branch m block) l s (s, false) := by
  refine does_passive (fun p hmem => ?_) hl hp hc
  rcases List.mem_cons.mp hmem with rfl | hmem
  · rfl
  · exact block_pipes_rmode block p hmem

/-- An `if` whose branches do what they should. -/
theorem does_if {cond : κ} {r : σ × Bool} (ps : List (Pipe κ)) (hl : l.Fresh) (ha : l.Active m)
    (h : ¬ (exec s cond).2 < -1 →
      Does exec ps { rcode := (exec s cond).2, nextIfCode := (exec s cond).2 } (exec s cond).1 r) :
    Does exec
      [(m, .group (.ofList ((.if, .cmd cond, .seq) :: (ps ++ [(.fi, .empty, .seq)]))), .seq)] l s
      (if (exec s cond).2 < -1 then ((exec s cond).1, true) else r) := by
  refine does_group hl ha ?_
  rw [Returns, PipeList.ofList, PipeList.append, runList_if]
  by_cases hexit : (exec s cond).2 < -1
  · rw [if_pos hexit, if_pos hexit, if_pos rfl]
  · rw [if_neg hexit, if_neg hexit]
    exact returns_of_does (Or.inr rfl) (h hexit)

mutual

/-- A statement behind `m` does what `Stmt.run` says. -/
theorem does_stmt : ∀ (stmt : Stmt κ) {l : Loop} {m : Reserved} (s : σ), l.Fresh → l.Active m →
    -1 ≤ l.rcode → Does exec (stmt.pipes m) l s (stmt.run exec s)
  | .blank, l, m, s, hl, ha, hc => by
    rw [Stmt.pipes, Stmt.run]
    exact does_blank hl ha hc
  | .line init last, l, m, s, hl, ha, hc => by
    rw [Stmt.pipes, Stmt.run]
    exact does_line hl ha hc
  | .ifThen cond body, l, m, s, hl, ha, hc => by
    rw [Stmt.pipes, Stmt.run]
    refine does_if (branch .then body) hl ha fun hexit => ?_
    by_cases hcode : (exec s cond).2 = 0
    · rw [if_pos hcode]
      have hthen : Loop.Active ⟨(exec s cond).2, true, 0, (exec s cond).2, none⟩ .then :=
        Or.inr (Or.inl ⟨rfl, hcode⟩)
      exact does_branch (Or.inl rfl) hthen (Int.not_lt.mp hexit) fun l' hok =>
        does_block body _ hok.fresh (hok.active hthen) hok.code
    · rw [if_neg hcode]
      exact does_branch_passive body _ (Or.inl rfl) (Or.inl ⟨rfl, hcode⟩) (Int.not_lt.mp hexit)
  | .ifElse cond body other, l, m, s, hl, ha, hc => by
    rw [Stmt.pipes, Stmt.run, List.append_assoc _ [_] (other.pipes .else)]
    refine does_if (branch .then body ++ branch .else other) hl ha fun hexit => ?_
    have hc' : -1 ≤ (exec s cond).2 := Int.not_lt.mp hexit
    by_cases hcode : (exec s cond).2 = 0
    · rw [if_pos hcode]
      have hthen : Loop.Active ⟨(exec s cond).2, true, 0, (exec s cond).2, none⟩ .then :=
        Or.inr (Or.inl ⟨rfl, hcode⟩)
      have hbody := does_branch (Or.inl rfl) hthen hc' fun l' hok =>
        does_block body (exec s cond).1 hok.fresh (hok.active hthen) hok.code
      have hboth := hbody.append fun _ l' hok =>
        does_branch_passive other (body.run exec (exec s cond).1).1 hok.fresh
          (Or.inr ⟨rfl, hok.next.trans hcode⟩) hok.code
      have hr : (if (body.run exec (exec s cond).1).2 then body.run exec (exec s cond).1
          else ((body.run exec (exec s cond).1).1, false)) = body.run exec (exec s cond).1 := by
        rcases body.run exec (exec s cond).1 with ⟨s', _ | _⟩
        · rfl
        · rfl
      rwa [hr] at hboth
    · rw [if_neg hcode]
      have helse : Loop.Active ⟨(exec s cond).2, true, 0, (exec s cond).2, none⟩ .else :=
        Or.inr (Or.inr ⟨rfl, hcode⟩)
      exact (does_branch_passive body _ (Or.inl rfl) (Or.inl ⟨rfl, hcode⟩) hc').append fun _ l' hok =>
        does_branch hok.fresh (hok.active helse) hok.code fun l'' hok' =>
          does_block other (exec s cond).1 hok'.fresh (hok'.active (hok.active helse)) hok'.code

/-- A block behind `m` does what `Block.run` says. -/
theorem does_block : ∀ (block : Block κ) {l : Loop} {m : Reserved} (s : σ), l.Fresh →
    l.Active m → -1 ≤ l.rcode → Does exec (block.pipes m) l s (block.run exec s)
  | .nil, l, m, s, hl, ha, hc => by
    intro rest
    rw [Block.run, if_neg (by simp)]
    exact ⟨l, ⟨hl, rfl, hc⟩, rfl⟩
  | .cons stmt rest, l, m, s, hl, ha, hc => by
    rw [Block.pipes, Block.run]
    exact (does_stmt stmt s hl ha hc).append fun _ l' hok =>
      does_block rest _ hok.fresh (hok.active ha) hok.code

end

/-- A statement of the top level as a list of its own. -/
theorem returns_stmt (stmt : Stmt κ) (s : σ) :
    Returns exec (.ofList (stmt.pipes .none ++ [(.none, .empty, .seq)])) {} s (stmt.run exec s) :=
  returns_of_does (Or.inl rfl) (does_stmt stmt s (Or.inl rfl) (Or.inl rfl) (by decide))

/-- The lines of a script run one after the other. -/
theorem runLines_block : ∀ (block : Block κ) (s : σ),
    runLines exec false s block.lines = ((block.run exec s).1, 0)
  | .nil, s => by simp [Block.lines, runLines, PipeList.ofList, PipeList.append, runList,
      Prog.isEmpty, Block.run]
  | .cons stmt rest, s => by
    have h : Returns exec _ {} s (stmt.run exec s) := returns_stmt stmt s
    rw [Returns] at h
    rw [Block.lines, runLines, Block.run]
    by_cases hleft : (stmt.run exec s).2 = true
    · rw [if_pos hleft] at h
      simp [h, hleft]
    · rw [if_neg hleft] at h
      obtain ⟨code, hcode, h⟩ := h
      have hne : code ≠ -2 := by omega
      simp only [h, hleft, hne, if_false]
      exact runLines_block rest _

/-- **What a script does.**  The script as `hush` parses and runs it does what its
structure says, and returns 0. -/
theorem runString_parse (block : Block κ) (s : σ) :
    runString exec false s (parse {} [] block.tokens) = ((block.run exec s).1, 0) := by
  rw [runString, parse_block, runLines_block]
  rfl

/-- What `run_command` does with one statement. -/
theorem runString_once (stmt : Stmt κ) (s : σ) :
    (runString exec true s (parse {} [] stmt.tokens)).1 = (stmt.run exec s).1 := by
  have h : Returns exec _ {} s (stmt.run exec s) := returns_stmt stmt s
  have hparse := parse_top stmt []
  rw [List.append_nil] at hparse
  rw [Returns] at h
  rw [runString, hparse, runLines]
  split at h
  · simp [h]
  · obtain ⟨code, hcode, h⟩ := h
    have hne : code ≠ -2 := by omega
    simp [h, hne]

end Run

end Hush
