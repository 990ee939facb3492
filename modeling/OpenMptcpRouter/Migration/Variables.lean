/-
The variables in which the shell keeps a configuration.

`config_load` assigns a value to `CONFIG_<section>_<option>` for every option, and the type of a
section to the variable of the option `TYPE`; a later assignment takes the place of an earlier
one.  When no two of them are to one variable, what the migration script relies on holds.
-/
import OpenMptcpRouter.Migration.Script

namespace Migration

/-- `<section>_<option>` -/
def variableName (name option : Text) : Text := name ++ '_' :: option

/-- The assignments of a section. -/
def Section.assignments (s : Section) : List (Text × Text) :=
  (variableName s.name.val typeName, s.type) ::
    s.options.map fun o => (variableName s.name.val o.1.val, o.2.text)

/-- The assignments of a configuration, in the order in which they are made. -/
def Config.assignments (c : Config) : List (Text × Text) :=
  c.sections.flatMap Section.assignments

/-- What a variable holds; nothing before it is assigned. -/
def Config.variable (c : Config) (var : Text) : Text :=
  (c.assignments.reverse.lookup var).getD []

/-- A shell with these variables, and no files that a word is a pattern for; names of added
sections are like those that UCI makes up. -/
def configShell : Shell where
  configGet c name option default :=
    -- with other characters in the name nothing is assigned
    if (name ++ option).all uciChar then orElse (c.variable (variableName name option)) default
    else []
  configType c name := c.variable (variableName name typeName)
  uciAdd n type := if type = [] then [] else "cfg".toList ++ Nat.toDigits 16 n
  glob word := [word]

/-- The one assignment to a variable is what it holds. -/
theorem Config.variable_of_mem {c : Config} {var value : Text}
    (h : (c.assignments.map Prod.fst).Nodup) (hmem : (var, value) ∈ c.assignments) :
    c.variable var = value := by
  have hkeys : (c.assignments.reverse.map Prod.fst).Nodup := by
    rw [List.map_reverse]
    exact List.nodup_reverse.mpr h
  obtain ⟨before, behind, heq⟩ := List.append_of_mem (List.mem_reverse.mpr hmem)
  rw [heq, List.map_append, List.map_cons, List.nodup_append] at hkeys
  have hnone : before.lookup var = none := by
    rw [List.lookup_eq_none_iff]
    intro p hp
    rw [bne_iff_ne]
    exact (hkeys.2.2 p.1 (List.mem_map_of_mem hp) var List.mem_cons_self).symm
  rw [Config.variable, heq, List.lookup_append, hnone, List.lookup_cons_self]
  rfl

theorem Section.all_uciChar (s : Section) {option : Text} (h : option.all uciChar = true) :
    (s.name.val ++ option).all uciChar = true := by
  rw [List.all_append, s.name.property.2, h]
  rfl

/-- **What the script relies on.**  It holds when every assignment is to a variable of its own. -/
theorem configShell_documented {c : Config} (h : (c.assignments.map Prod.fst).Nodup) :
    configShell.Documented c := by
  have hmem : ∀ s ∈ c.sections, ∀ p ∈ s.assignments, c.variable p.1 = p.2 := by
    intro s hs p hp
    exact Config.variable_of_mem h (List.mem_flatMap.mpr ⟨s, hs, hp⟩)
  have hself : ∀ text : Text, orElse text [] = text := by
    intro text
    rw [orElse]
    split <;> simp_all
  refine ⟨?_, ?_, ?_, ?_, ?_⟩
  · intro s hs option v hget
    obtain ⟨p, hfind, rfl⟩ := Option.map_eq_some_iff.mp hget
    have hname : p.1.val = option.val := by simpa using List.find?_some hfind
    dsimp only [configShell]
    rw [if_pos (s.all_uciChar option.property.2), hself, ← hname]
    exact hmem s hs (_, p.2.text)
      (List.mem_cons_of_mem _ (List.mem_map_of_mem (List.mem_of_find?_eq_some hfind)))
  · intro s hs
    dsimp only [configShell]
    rw [if_pos (s.all_uciChar (by decide)), hself]
    exact hmem s hs (_, s.type) List.mem_cons_self
  · intro name option default
    have hall : (name.val ++ option.val).all uciChar = true := by
      rw [List.all_append, name.property.2, option.property.2]
      rfl
    dsimp only [configShell]
    rw [if_pos hall, if_pos hall, hself]
  · intro s hs
    exact hmem s hs (_, s.type) List.mem_cons_self
  · intro n type htype
    dsimp only [configShell]
    rw [if_neg htype]
    simp

end Migration
