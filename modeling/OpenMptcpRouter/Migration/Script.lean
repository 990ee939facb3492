/-
The migration script (`lib/functions/migrate.sh`).

A section rule names a section of the old configuration, or its type; for each of its option
rules the value of the option, translated if the rule has an `if`, is written to a section of
the new configuration.  The section found stands in the shell variable `_OLD_SEC_NAME`, which
keeps its value when nothing is found.

`config_load` and `config_get`, `uci`, and the files in the working directory are outside: they
are the `Shell`, and `Shell.Documented` says what is relied on.  A value that is written to a
list is not quoted in the script, so that the shell splits it at blanks and takes what looks
like a pattern for file names.

Values carry the section they were read from; nothing is decided by it.
-/
import OpenMptcpRouter.Lib.Run
import Mathlib.Data.List.Nodup
import Mathlib.Data.List.Find

namespace Migration

/-- A text, character by character. -/
abbrev Text := List Char

/-- The characters of UCI names. -/
def uciChar (c : Char) : Bool := c.isAlphanum || c = '_'

/-- A name of a section or an option. -/
abbrev UciName := { name : Text // name ≠ [] ∧ name.all uciChar = true }

/-- `${a:-b}` -/
def orElse (a b : Text) : Text := if a = [] then b else a

/-! ### The old configuration -/

/-- The value of an option: a text, or the elements of a list. -/
inductive OptionValue
  | option (text : Text)
  | list (items : List Text)
  deriving DecidableEq, Repr

/-- The value as a shell variable holds it, the elements of a list with blanks between. -/
def OptionValue.text : OptionValue → Text
  | .option text => text
  | .list items => [' '].intercalate (items.filter (· ≠ []))

/-- A section; an option without a value does not exist. -/
structure Section where
  name : UciName
  type : Text
  options : List (UciName × OptionValue)
  type_ne : type ≠ []
  value_ne : ∀ o ∈ options, o.2.text ≠ []

/-- The value of an option. -/
def Section.get (s : Section) (option : Text) : Option OptionValue :=
  (s.options.find? fun o => o.1.val = option).map Prod.snd

/-- `TYPE`, under which the type of a section is asked for. -/
def typeName : Text := "TYPE".toList

/-- What `config_load` has read, in the order of `CONFIG_SECTIONS`. -/
structure Config where
  sections : List Section
  names_nodup : (sections.map Section.name).Nodup

def Config.find (c : Config) (name : Text) : Option Section :=
  c.sections.find? fun s => s.name.val = name

/-! ### What is outside -/

/-- The functions that the script calls, once `config_load` has read the configuration. -/
structure Shell where
  /-- what `config_get` assigns for a section, an option and a default -/
  configGet : Config → Text → Text → Text → Text
  /-- the variable `CONFIG_<section>_TYPE` -/
  configType : Config → Text → Text
  /-- `uci add`: the name of the section that is added after `n` others -/
  uciAdd : ℕ → Text → Text
  /-- a word with the files it is a pattern for in its place -/
  glob : Text → List Text

/-- What the script relies on.  Nothing is said of what `config_get` shows for an option that
does not exist. -/
structure Shell.Documented (sh : Shell) (c : Config) : Prop where
  /-- `config_get` gives the value of an option. -/
  get_some : ∀ s ∈ c.sections, ∀ (option : UciName) (v : OptionValue),
    s.get option.val = some v → sh.configGet c s.name.val option.val [] = v.text
  /-- The type of a section is shown as an option. -/
  get_type : ∀ s ∈ c.sections, sh.configGet c s.name.val typeName [] = s.type
  /-- The default is given where nothing would be. -/
  get_default : ∀ (name option : UciName) (default : Text),
    sh.configGet c name.val option.val default =
      orElse (sh.configGet c name.val option.val []) default
  /-- The variable holds the type. -/
  type_some : ∀ s ∈ c.sections, sh.configType c s.name.val = s.type
  /-- A section with a type can be added. -/
  add_ne : ∀ n type, type ≠ [] → sh.uciAdd n type ≠ []

/-- The fields that an unquoted text is split into. -/
def fields (text : Text) : List Text :=
  (text.splitOnP fun c => c = ' ' || c = '\t' || c = '\n').filter (· ≠ [])

/-- The words of an unquoted text. -/
def Shell.words (sh : Shell) (text : Text) : List Text := (fields text).flatMap sh.glob

/-! ### The rules -/

/-- A rule for an option; what is absent is empty. -/
structure OptionRule where
  option : UciName
  newName : Text := []
  cond : Option (List (Text × Text)) := none
  default : Text := []
  type : Text := []
  keys_nodup : ((cond.getD []).map Prod.fst).Nodup := by exact List.nodup_nil

/-- The conditions of a rule. -/
def OptionRule.conds (o : OptionRule) : List (Text × Text) := o.cond.getD []

/-- A rule for a section. -/
structure SectionRule where
  oldName : Option UciName := none
  newName : Text := []
  newType : Text := []
  oldType : Text := []
  remove : Text := []
  options : List OptionRule

/-- A file of rules. -/
structure RuleFile where
  oldName : Text
  newName : Text := []
  sections : List SectionRule
  remove : Text := []

/-! ### The source -/

/-- The shell variables, and how many sections `uci add` has added. -/
structure Globals where
  oldSecName : Option UciName
  newSecName : Text
  oldSecType : Text
  newSecType : Text
  added : ℕ

/-- A value and the section it was read from. -/
structure Value where
  text : Text
  origin : Option Text
  deriving DecidableEq, Repr

/-- `get_section_name`, with the value of the variable before. -/
def getSectionName (sh : Shell) (c : Config) (var : Option UciName) (type : Text) :
    Option UciName :=
  match c.sections.find? fun s =>
    type = [] ∨ sh.configGet c s.name.val typeName [] = type with
  | some s => some s.name
  | none => var

/-- A call of `uci_set` or, for an element of a list, of `uci_add_list`. -/
structure Write where
  option : Text
  value : Value
  list : Bool
  deriving DecidableEq, Repr

/-- `_set_option`. -/
def setOption (option : Text) (value : Value) : List Write := [⟨option, value, false⟩]

/-- `_set_list_option`, with `$value` not quoted. -/
def setListOption (sh : Shell) (option : Text) (value : Value) : List Write :=
  (sh.words value.text).map fun element => ⟨option, { value with text := element }, true⟩

/-- `_parse_condition`. -/
def parseCondition (conds : List (Text × Text)) (value : Text) : Text :=
  conds.foldl (fun found p => if p.1 = value then p.2 else found) []

/-- `config_get`, with the section the value is from. -/
def getValue (sh : Shell) (c : Config) (name option default : Text) : Value :=
  ⟨sh.configGet c name option default,
    if sh.configGet c name option [] = [] then none else some name⟩

/-- `config_get value $_OLD_SEC_NAME "$option" "$default"` -/
def readValue (sh : Shell) (c : Config) (g : Globals) (o : OptionRule) : Value :=
  match g.oldSecName with
  | some name => getValue sh c name.val o.option.val o.default
  | none =>
    -- no word for the section: the others move up, and without a third the value is printed
    if o.default = [] then ⟨[], none⟩ else getValue sh c o.option.val o.default []

/-- What a rule with an `if` makes of the value. -/
def applyIf (o : OptionRule) (value : Text) : Text :=
  match o.cond with
  | some conds => orElse (parseCondition conds value) (orElse value o.default)
  | none => value

/-- The rule is for a list. -/
def OptionRule.isList (o : OptionRule) : Bool := o.type = "list".toList

/-- `_option_rule_cb`. -/
def optionRuleCb (sh : Shell) (c : Config) (g : Globals) (o : OptionRule) : List Write :=
  let value := readValue sh c g o
  let value := { value with text := applyIf o value.text }
  if o.isList then setListOption sh (orElse o.newName o.option.val) value
  else setOption (orElse o.newName o.option.val) value

/-- The name that `_init_section` leaves in `_OLD_SEC_NAME`. -/
def oldSecName (sh : Shell) (c : Config) (g : Globals) (r : SectionRule) : Option UciName :=
  match r.oldName with
  | some name => some name
  | none => getSectionName sh c g.oldSecName r.oldType

/-- `_init_section`, and whether it returns 0. -/
def initSection (sh : Shell) (c : Config) (g : Globals) (r : SectionRule) : Globals × Bool :=
  if r.oldName = none ∧ r.oldType = [] then (g, false)
  else
    let oldSecName := oldSecName sh c g r
    let type := orElse r.newType r.oldType
    let newSecType :=
      if type = [] then sh.configType c ((oldSecName.map Subtype.val).getD []) else type
    let g := { g with oldSecName := oldSecName, oldSecType := r.oldType, newSecType := newSecType }
    if r.newName = [] then
      let name := sh.uciAdd g.added newSecType
      ({ g with newSecName := name, added := g.added + 1 }, name ≠ [])
    else ({ g with newSecName := r.newName }, true)

/-- What comes of a section rule: the new section and its type, for each option rule the writes
to it, and the section removed from the old configuration. -/
inductive Outcome
  | unableToInit
  | migrated (sec type : Text) (writes : List (List Write)) (removed : Option Text)
  deriving DecidableEq, Repr

/-- `_section_rule_cb`. -/
def sectionRuleCb (sh : Shell) (c : Config) (g : Globals) (r : SectionRule) : Globals × Outcome :=
  let (g, ok) := initSection sh c g r
  if ok then
    (g, .migrated g.newSecName g.newSecType (r.options.map (optionRuleCb sh c g))
      (if r.remove = [] then none else some ((r.oldName.map Subtype.val).getD [])))
  else (g, .unableToInit)

/-- What comes of a file of rules: the configuration written to, and whether the old one is
removed. -/
inductive Migrated
  | noFile
  | unableToLoad
  | done (newConfig : Text) (outcomes : List Outcome) (rmConfig : Bool)
  deriving DecidableEq, Repr

/-- `migrate`, where `configs` are the files under `/etc/config`. -/
def migrate (sh : Shell) (configs : Text → Option Config) (g : Globals) : Option RuleFile → Migrated
  | none => .noFile
  | some f =>
    if f.oldName = [] then .unableToLoad
    else
      match configs f.oldName with
      | none => .unableToLoad
      | some c =>
        .done (orElse f.newName f.oldName) (Run.outputs (sectionRuleCb sh c) g f.sections)
          (f.remove ≠ [])

/-! ### Reading -/

theorem Config.find_name {c : Config} {name : Text} {s : Section} (h : c.find name = some s) :
    s.name.val = name := by
  simpa using List.find?_some h

variable {sh : Shell} {c : Config}

/-- The first section of a type. -/
theorem Shell.Documented.getSectionName_eq (h : sh.Documented c) {var : Option UciName}
    {type : Text} (htype : type ≠ []) :
    getSectionName sh c var type =
      match c.sections.find? fun s => s.type = type with
      | some s => some s.name
      | none => var := by
  have hfind : (c.sections.find? fun s =>
      type = [] ∨ sh.configGet c s.name.val typeName [] = type) =
        c.sections.find? fun s => s.type = type := by
    refine List.find?_congr fun s hs => ?_
    rw [h.get_type s hs]
    simp [htype]
  rw [getSectionName, hfind]

end Migration
