/-
Which device tree the kernel is started with (`cmd_bootqca.c`).

`conf_mdtb_select` takes two characters of the device's name for the description of its
device tree, adds `_STM32` if that chip answers, and looks for the first configuration
`conf_mdtb@1`, `conf_mdtb@2`, ... of the FIT image with that description; `config@5` is
the way out.

What it finds goes through an array on the stack and two static variables, so that a call
can depend on what the stack held and on the calls before it.

* `mdtbLoop_spec` — the search finds the least matching configuration;
* `run_selects` — in any sequence of calls, a call selects as it should if the name is
  long enough, the byte behind the two characters was zero, and the static pointer has
  not been left at `config@5` while there is something to select;
* `missing_name_not_selected` — without a name nothing is looked for.
-/
import OpenMptcpRouter.Lib.CString
import OpenMptcpRouter.Lib.Run

namespace Bootipq

open CString

/-- Bytes in memory. -/
abbrev Bytes := List UInt8

/-- A C string without its NUL. -/
abbrev CText := { text : Bytes // (0 : UInt8) ∉ text }

/-- What a call of `conf_mdtb_select` meets: the environment, the answers of the chip to one
attempt after the other, the FIT image (the description of each configuration that exists and
has one), the arguments, and the memory from `desc` on as earlier calls left it. -/
structure Call where
  mnfName : Option CText
  mnfHwver : Option CText
  stm32ViaI2cFound : ℕ → Bool
  fit : Bytes → Option Bytes
  addr : ℕ
  rcmdSize : Option ℤ
  stack : Bytes

/-- Where the static `conf_name` points to. -/
inductive ConfName
  | name
  | config5
  deriving DecidableEq, Repr

/-- The static variables of `conf_mdtb_select`. -/
structure State where
  name : Bytes
  confName : ConfName
  deriving DecidableEq, Repr

/-- The static variables to begin with. -/
def booted : State := ⟨[], .name⟩

/-- What a call returns: its value, the string `conf_name` points to, and the command. -/
structure Result where
  ret : ℕ
  confName : Bytes
  rcmd : Option Bytes
  deriving DecidableEq, Repr

/-! ### The source -/

/-- The devices by the end of their name, and the hardware version from which on they have no
STM32. -/
def stm32Map : List (Bytes × ℕ) :=
  [(ascii "08", 9), (ascii "09", 9), (ascii "10", 9), (ascii "11", 9), (ascii "12", 4),
    (ascii "14", 3), (ascii "R1", 6), (ascii "50", 0)]

/-- `expecting_stm32`. -/
def expectingStm32 (mnfName mnfHwver : Option CText) : Bool :=
  match mnfName, mnfHwver with
  | some ⟨name, _⟩, some ⟨hwver, _⟩ =>
    if name.take 4 ≠ ascii "RUTX" then true
    else
      -- first 2 chars are MAIN hwver, last 2 are RF, except on single board devices
      let hwver := if hwver.take 2 = ascii "00" then hwver.drop 2 else hwver
      match stm32Map.find? fun entry => entry.1 = (name.drop 4).take 2 with
      | some entry => decide (atoi (hwver.take 2) 0 < entry.2)
      | none => true
  | _, _ => true

/-- `stm32_found`, after up to ten more attempts. -/
def stm32Found (c : Call) : Bool :=
  c.stm32ViaI2cFound 0 ||
    (expectingStm32 c.mnfName c.mnfHwver &&
      (List.range 10).any fun i => c.stm32ViaI2cFound (i + 1))

/-- `strncpy` of two characters: no NUL is put behind them. -/
def strncpy2 (dest src : Bytes) : Bytes := src.take 2 ++ dest.drop 2

/-- `strcat`. -/
def strcat (dest src : Bytes) : Bytes :=
  cstr dest ++ src ++ 0 :: dest.drop ((cstr dest).length + src.length + 1)

/-- The name of configuration `i`. -/
def confMdtb (i : ℕ) : Bytes :=
  ascii "conf_mdtb@" ++ (Nat.toDigits 10 i).map fun c => UInt8.ofNat c.toNat

/-- The search from configuration `i` on, `r` of them: the last name tried, and whether its
description is the one looked for. -/
def mdtbLoop (fit : Bytes → Option Bytes) (desc : Bytes) : ℕ → ℕ → Bytes → Bytes × Bool
  | _, 0, name => (name, false)
  | i, r + 1, _ =>
    match fit (confMdtb i) with
    | none => (confMdtb i, false)
    | some dtbDesc =>
      if desc = dtbDesc then (confMdtb i, true) else mdtbLoop fit desc (i + 1) r (confMdtb i)

/-- The string `conf_name` points to. -/
def State.selected (s : State) : Bytes :=
  match s.confName with
  | .name => s.name
  | .config5 => ascii "config@5"

/-- `%p`: eight hexadecimal digits. -/
def pointerText (addr : ℕ) : Bytes :=
  let digits := Nat.toDigits 16 (addr % 2 ^ 32)
  (List.replicate (8 - digits.length) '0' ++ digits).map fun c => UInt8.ofNat c.toNat

/-- From the label `bootm` on. -/
def bootm (s : State) (c : Call) : State × Result :=
  let text := ascii "bootm " ++ pointerText c.addr ++ ascii "#" ++ s.selected ++ [10]
  match c.rcmdSize with
  | some size =>
    -- as a `size_t`, a negative size is no bound
    let command := if size < 0 then text else text.take (size - 1).toNat
    (s, ⟨if size ≤ text.length then 1 else 0, s.selected, some command⟩)
  | none => (s, ⟨0, s.selected, none⟩)

/-- `conf_mdtb_select`. -/
def confMdtbSelect (s : State) (c : Call) : State × Result :=
  match c.mnfName with
  | none => bootm s c
  | some ⟨mnfName, _⟩ =>
    if mnfName.length < 6 then bootm s c
    else
      let desc := strncpy2 c.stack (mnfName.drop 4)
      let desc := if stm32Found c then strcat desc (ascii "_STM32") else desc
      let (name, found) := mdtbLoop c.fit (cstr desc) 1 99 s.name
      let s := { s with name := name }
      if found then bootm s c else bootm { s with confName := .config5 } c

/-! ### What is to be selected -/

/-- The description of the device: characters 4 and 5 of its name, or `08`, and the chip. -/
def description (c : Call) : Bytes :=
  (match c.mnfName with
    | some ⟨name, _⟩ => if name.length < 6 then ascii "08" else (name.drop 4).take 2
    | none => ascii "08") ++ if stm32Found c then ascii "_STM32" else []

/-- Configuration `i` matches, and all up to it exist and have descriptions. -/
def Matches (fit : Bytes → Option Bytes) (desc : Bytes) (i : ℕ) : Prop :=
  1 ≤ i ∧ i ≤ 99 ∧ (∀ j, 1 ≤ j → j ≤ i → (fit (confMdtb j)).isSome) ∧ fit (confMdtb i) = some desc

/-- The first configuration that matches, or `config@5`. -/
def Selects (c : Call) (name : Bytes) : Prop :=
  (∃ i, Matches c.fit (description c) i ∧ (∀ j < i, ¬ Matches c.fit (description c) j) ∧
    name = confMdtb i) ∨
  ((∀ i, ¬ Matches c.fit (description c) i) ∧ name = ascii "config@5")

/-- The name is long enough, its two characters end in the array, and the static pointer is
where it was to begin with, unless there is nothing to select. -/
def Good (s : State) (c : Call) : Prop :=
  (∃ name, c.mnfName = some name ∧ 6 ≤ name.val.length) ∧ c.stack.getD 2 0 = 0 ∧
    (s.confName = .name ∨ ∀ i, ¬ Matches c.fit (description c) i)

/-! ### The search -/

/-- `Matches` for a search from configuration `i` on, `r` of them. -/
def MatchesFrom (fit : Bytes → Option Bytes) (desc : Bytes) (i r j : ℕ) : Prop :=
  i ≤ j ∧ j < i + r ∧ (∀ k, i ≤ k → k ≤ j → (fit (confMdtb k)).isSome) ∧
    fit (confMdtb j) = some desc

theorem matchesFrom_iff {fit : Bytes → Option Bytes} {desc : Bytes} {j : ℕ} :
    MatchesFrom fit desc 1 99 j ↔ Matches fit desc j := by
  unfold MatchesFrom Matches
  rw [show j < 1 + 99 ↔ j ≤ 99 by omega]

/-- The first configuration searched matches if it has the description. -/
theorem matchesFrom_self {fit : Bytes → Option Bytes} {desc : Bytes} {i : ℕ} (r : ℕ)
    (h : fit (confMdtb i) = some desc) : MatchesFrom fit desc i (r + 1) i := by
  refine ⟨le_rfl, by omega, ?_, h⟩
  intro k hik hki
  obtain rfl : k = i := by omega
  rw [h]
  rfl

/-- Behind a configuration with another description the search goes on. -/
theorem matchesFrom_succ {fit : Bytes → Option Bytes} {desc dtbDesc : Bytes} {i r j : ℕ}
    (h : fit (confMdtb i) = some dtbDesc) (hne : desc ≠ dtbDesc) :
    MatchesFrom fit desc i (r + 1) j ↔ MatchesFrom fit desc (i + 1) r j := by
  constructor
  · rintro ⟨hij, hj, hall, hdesc⟩
    have hji : j ≠ i := by
      rintro rfl
      exact hne (Option.some.inj (hdesc.symm.trans h))
    exact ⟨by omega, by omega, fun k hk hkj => hall k (by omega) hkj, hdesc⟩
  · rintro ⟨hij, hj, hall, hdesc⟩
    refine ⟨by omega, by omega, ?_, hdesc⟩
    intro k hk hkj
    by_cases hki : k = i
    · rw [hki, h]
      rfl
    · exact hall k (by omega) hkj

/-- **The search.**  It ends at the first match, and if there is none it finds nothing. -/
theorem mdtbLoop_spec {fit : Bytes → Option Bytes} {desc : Bytes} (r : ℕ) :
    ∀ (i : ℕ) (name : Bytes),
      (∀ j, MatchesFrom fit desc i r j → (∀ k < j, ¬ MatchesFrom fit desc i r k) →
        mdtbLoop fit desc i r name = (confMdtb j, true)) ∧
      ((∀ j, ¬ MatchesFrom fit desc i r j) → (mdtbLoop fit desc i r name).2 = false) := by
  induction r with
  | zero =>
    intro i name
    refine ⟨?_, fun _ => rfl⟩
    rintro j ⟨hij, hj, -⟩
    omega
  | succ r ih =>
    intro i name
    cases h : fit (confMdtb i) with
    | none =>
      -- a configuration that is missing ends the search, whatever stands behind it
      have hnone : ∀ j, ¬ MatchesFrom fit desc i (r + 1) j := by
        rintro j ⟨hij, -, hall, -⟩
        have := hall i le_rfl hij
        simp [h] at this
      refine ⟨fun j hj _ => absurd hj (hnone j), fun _ => ?_⟩
      rw [mdtbLoop, h]
    | some dtbDesc =>
      by_cases hdesc : desc = dtbDesc
      · have hi : MatchesFrom fit desc i (r + 1) i := matchesFrom_self r (by rw [h, hdesc])
        refine ⟨?_, fun hnone => absurd hi (hnone i)⟩
        intro j hj hmin
        obtain rfl : j = i := by
          by_contra hne
          have hij := hj.1
          exact hmin i (by omega) hi
        rw [mdtbLoop, h]
        exact if_pos hdesc
      · have hloop : mdtbLoop fit desc i (r + 1) name
            = mdtbLoop fit desc (i + 1) r (confMdtb i) := by
          rw [mdtbLoop, h]
          exact if_neg hdesc
        simp only [matchesFrom_succ h hdesc, hloop]
        exact ih (i + 1) (confMdtb i)

/-! ### The description -/

/-- `strcat` appends to the string that the bytes hold. -/
theorem cstr_strcat {dest src : Bytes} (h : (0 : UInt8) ∉ src) :
    cstr (strcat dest src) = cstr dest ++ src := by
  have hdest : (0 : UInt8) ∉ cstr dest := by
    intro hmem
    obtain ⟨i, hi⟩ := List.mem_iff_getElem?.mp hmem
    exact getElem?_cstr_ne_zero dest i hi
  have hnil : ∀ rest : Bytes, cstr (0 :: rest) = [] := cstr_append_zero []
  rw [strcat, List.append_assoc, cstr_append hdest, cstr_append h, hnil, List.append_nil]

/-- Two characters in front of a zero byte are the whole string. -/
theorem cstr_strncpy2 {dest src : Bytes} (hsrc : (0 : UInt8) ∉ src) (hdest : dest.getD 2 0 = 0) :
    cstr (strncpy2 dest src) = src.take 2 := by
  have htake : (0 : UInt8) ∉ src.take 2 := fun hmem => hsrc (List.mem_of_mem_take hmem)
  have hlen : (cstr (dest.drop 2)).length < 1 :=
    length_cstr_lt_iff.mpr ⟨0, Nat.one_pos, by simpa [List.getD, List.getElem?_drop] using hdest⟩
  have hnil : cstr (dest.drop 2) = [] := List.length_eq_zero_iff.mp (by omega)
  rw [strncpy2, cstr_append htake, hnil, List.append_nil]

/-- The text that is compared, when the byte behind the two characters was zero. -/
theorem compared_eq {c : Call} {name : CText} (hname : c.mnfName = some name)
    (hlen : 6 ≤ name.val.length) (hstack : c.stack.getD 2 0 = 0) :
    cstr (if stm32Found c then strcat (strncpy2 c.stack (name.val.drop 4)) (ascii "_STM32")
      else strncpy2 c.stack (name.val.drop 4)) = description c := by
  have hdrop : (0 : UInt8) ∉ name.val.drop 4 := fun hmem => name.2 (List.mem_of_mem_drop hmem)
  have hchip : (0 : UInt8) ∉ ascii "_STM32" := by decide
  have hdesc : description c
      = (name.val.drop 4).take 2 ++ if stm32Found c then ascii "_STM32" else [] := by
    simp only [description, hname, if_neg (show ¬ name.val.length < 6 by omega)]
  rw [hdesc]
  cases stm32Found c with
  | true => rw [if_pos rfl, if_pos rfl, cstr_strcat hchip, cstr_strncpy2 hdrop hstack]
  | false =>
    rw [if_neg Bool.false_ne_true, if_neg Bool.false_ne_true, cstr_strncpy2 hdrop hstack,
      List.append_nil]

/-! ### What a call selects -/

theorem bootm_confName (s : State) (c : Call) : (bootm s c).2.confName = s.selected := by
  unfold bootm
  cases c.rcmdSize <;> rfl

/-- A call with a name that is long enough. -/
theorem confMdtbSelect_of_name {s : State} {c : Call} {name : CText}
    (hname : c.mnfName = some name) (hlen : 6 ≤ name.val.length) (hstack : c.stack.getD 2 0 = 0) :
    (confMdtbSelect s c).2.confName =
      if (mdtbLoop c.fit (description c) 1 99 s.name).2 then
        ({ s with name := (mdtbLoop c.fit (description c) 1 99 s.name).1 } : State).selected
      else ascii "config@5" := by
  rw [confMdtbSelect, hname]
  simp only [if_neg (show ¬ name.val.length < 6 by omega), compared_eq hname hlen hstack]
  split
  · rw [bootm_confName]
  · rw [bootm_confName]
    rfl

/-- **One call.**  Under the condition it selects what it should. -/
theorem selects_of_good {s : State} {c : Call} (h : Good s c) :
    Selects c (confMdtbSelect s c).2.confName := by
  obtain ⟨⟨name, hname, hlen⟩, hstack, hptr⟩ := h
  obtain ⟨hfound, hmissed⟩ :=
    @mdtbLoop_spec c.fit (description c) 99 1 s.name
  simp only [matchesFrom_iff] at hfound hmissed
  rw [confMdtbSelect_of_name hname hlen hstack]
  by_cases hex : ∃ i, Matches c.fit (description c) i
  · -- there is a first match, the search ends there, and the pointer leads to its name
    have hptr : s.confName = .name := by
      rcases hptr with hptr | hnone
      · exact hptr
      · obtain ⟨i, hi⟩ := hex
        exact absurd hi (hnone i)
    classical
    have hfirst := Nat.find_spec hex
    have hmin : ∀ j < Nat.find hex, ¬ Matches c.fit (description c) j :=
      fun j hj => Nat.find_min hex hj
    rw [hfound _ hfirst hmin]
    refine Or.inl ⟨Nat.find hex, hfirst, hmin, ?_⟩
    simp [State.selected, hptr]
  · have hnone : ∀ i, ¬ Matches c.fit (description c) i := not_exists.mp hex
    rw [hmissed hnone]
    exact Or.inr ⟨hnone, rfl⟩

/-- **Device-tree selection.**  In every sequence of calls that meet the condition, each call
that returns 0 has selected the first configuration with the device's description, or
`config@5` if there is none. -/
theorem run_selects {s : State} {calls : List Call} (h : Run.AllSteps confMdtbSelect Good s calls) :
    Run.AllSteps confMdtbSelect
      (fun s c => (confMdtbSelect s c).2.ret = 0 → Selects c (confMdtbSelect s c).2.confName)
      s calls := by
  refine Run.allSteps_mono ?_ h
  intro s c hgood _
  exact selects_of_good hgood

/-- A FIT image with the descriptions `07`, `08` and `08_STM32`. -/
def threeTrees (name : Bytes) : Option Bytes :=
  if name = ascii "conf_mdtb@1" then some (ascii "07")
  else if name = ascii "conf_mdtb@2" then some (ascii "08")
  else if name = ascii "conf_mdtb@3" then some (ascii "08_STM32")
  else none

theorem rutx08_nulFree : (0 : UInt8) ∉ ascii "RUTX08000000" := by decide

/-- A call for a RUTX08 whose chip answers at the first attempt. -/
def rutx08Call : Call where
  mnfName := some ⟨ascii "RUTX08000000", rutx08_nulFree⟩
  mnfHwver := none
  stm32ViaI2cFound _ := true
  fit := threeTrees
  addr := 0x84000000
  rcmdSize := some 256
  stack := []

/-- Three calls on that image: with the chip, without it, and again with the chip. -/
theorem run_selects_rutx08 :
    Run.AllSteps confMdtbSelect
      (fun s c => (confMdtbSelect s c).2.ret = 0 → Selects c (confMdtbSelect s c).2.confName)
      booted [rutx08Call, { rutx08Call with stm32ViaI2cFound := fun _ => false }, rutx08Call] := by
  have hname : ∃ name, rutx08Call.mnfName = some name ∧ 6 ≤ name.val.length :=
    ⟨_, rfl, by decide⟩
  exact run_selects ⟨⟨hname, rfl, Or.inl rfl⟩, ⟨hname, rfl, Or.inl (by decide)⟩,
    ⟨hname, rfl, Or.inl (by decide)⟩, trivial⟩

/-- **Without a name nothing is looked for.**  The first call after the start has no name; the
image has a configuration for `08`, and the call returns 0 with no configuration at all. -/
theorem missing_name_not_selected :
    ¬ ∀ calls : List Call, Run.AllSteps confMdtbSelect
      (fun s c => (confMdtbSelect s c).2.ret = 0 → Selects c (confMdtbSelect s c).2.confName)
      booted calls := by
  intro h
  have hcall := (h [{ rutx08Call with
    mnfName := none, stm32ViaI2cFound := fun _ => false }]).1 (by decide)
  -- the name that is handed out is empty
  rcases hcall with ⟨i, -, -, hi⟩ | ⟨-, hconf⟩
  · have hlen := congrArg List.length hi
    simp [confMdtb, ascii, confMdtbSelect, bootm, rutx08Call, booted, State.selected] at hlen
  · exact absurd hconf (by decide)

end Bootipq
