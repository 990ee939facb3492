/-
The hash table as a store of variables.

* `Clobbers` — when a new entry overwrites another one: no slot is free any more, deleted
  entries have left marks, and the first slot for the key is not one of them;
* `find_spec`, `enter_spec`, `delete_spec` — one step of the table;
* `refines_run` — **in every run without such a step the table answers like a map** of as
  many variables as it has slots, and every search ends;
* `enter_keeps_iff` — and in such a step a variable is lost.
-/
import OpenMptcpRouter.Hashtable.Search
import OpenMptcpRouter.Lib.CString
import OpenMptcpRouter.Lib.Run

namespace Hashtable

open OpenAddressing

/-- What is done to the table. -/
inductive Op
  | find (key : Text)
  | enter (key data : Text)
  | delete (key : Text)

/-- The data of `retval`, or whether an entry was deleted. -/
inductive Answer
  | data (found : Option Text)
  | deleted (found : Bool)
  deriving DecidableEq

/-- One step of the table; there is no answer if the search does not end. -/
def Htab.step (h : Htab) : Op → Htab × Option Answer
  | .find key =>
    match hsearchR h key .find with
    | some r => (r.htab, some (.data (r.retval.map Entry.data)))
    | none => (h, none)
  | .enter key data =>
    match hsearchR h key (.enter data) with
    | some r => (r.htab, some (.data (r.retval.map Entry.data)))
    | none => (h, none)
  | .delete key =>
    match hdeleteR h key with
    | some (h', ret) => (h', some (.deleted (ret ≠ 0)))
    | none => (h, none)

/-- A map of at most `size` variables. -/
noncomputable def mapStep (size : ℕ) (m : Text → Option Text) :
    Op → (Text → Option Text) × Option Answer
  | .find key => (m, some (.data (m key)))
  | .enter key data =>
    if m key = none ∧ {k | m k ≠ none}.ncard = size then (m, some (.data none))
    else (Function.update m key (some data), some (.data (some data)))
  | .delete key => (Function.update m key none, some (.deleted (m key).isSome))

/-- A new entry for `key` overwrites another one. -/
def Htab.Clobbers (h : Htab) (key : Text) : Prop :=
  h.lookup key = none ∧ h.filled ≠ h.size ∧ (∀ i ∈ slots h.size, (h.table i).used ≠ 0) ∧
    (h.table (hval h.size key)).used ≠ -1

instance (h : Htab) : DecidablePred h.Clobbers := fun key => by
  unfold Htab.Clobbers
  infer_instance

section Steps

variable {h : Htab} {key : Text} {i : ℕ}

@[simp] theorem Htab.set_size (h : Htab) (i : ℕ) (e : Entry) : (h.set i e).size = h.size := rfl

@[simp] theorem Htab.set_filled (h : Htab) (i : ℕ) (e : Entry) : (h.set i e).filled = h.filled := rfl

theorem Htab.set_slot (h : Htab) (i : ℕ) (e : Entry) :
    (h.set i e).slot = Function.update h.slot i e.slot := by
  funext j
  show (Function.update h.table i e j).slot = _
  by_cases hj : j = i
  · rw [hj, Function.update_self, Function.update_self]
  · rw [Function.update_of_ne hj, Function.update_of_ne hj]
    rfl

theorem Good.hval_pos (hg : Good h) (key : Text) : 0 < hval h.size key :=
  (Finset.mem_Icc.mp (hval_mem hg.size_gt key)).1

/-- A slot with the hash of a key holds an entry. -/
theorem Good.slot_used {e : Entry} (hg : Good h) (he : e.used = hval h.size key) :
    e.slot = .used e.key e.data := by
  have hpos := hg.hval_pos key
  rw [Entry.slot, if_neg (by omega), if_neg (by omega)]

theorem Good.lookup_eq_some (hg : Good h) {d : Text} :
    h.lookup key = some d ↔ ∃ i ∈ slots h.size, h.slot i = .used key d :=
  hg.sound.get_eq_some hg.covers

/-- The search for a key that the table holds. -/
theorem Good.locate_found (hg : Good h) (hi : i ∈ slots h.size) {d : Text}
    (hslot : h.slot i = .used key d) :
    h.locate key = some (i, true) ∧ h.Matches key i ∧ (h.table i).data = d := by
  have hstops : (h.slot i).stops key = true := by
    rw [hslot]
    exact Slot.stops_used.mpr rfl
  have hmatch : h.Matches key i := by
    refine ((hg.stops_iff key hi).mp hstops).resolve_left fun hzero => ?_
    rw [Htab.slot, Entry.slot, if_pos hzero] at hslot
    cases hslot
  have hused : (h.table i).used ≠ 0 := by
    have := hg.hval_pos key
    have := hmatch.1
    omega
  refine ⟨?_, hmatch, ?_⟩
  · rw [hg.locate_eq, hg.sound i hi key d hslot]
    show some (i, decide ((h.table i).used ≠ 0)) = _
    rw [decide_eq_true hused]
  · rw [Htab.slot, hg.slot_used hmatch.1] at hslot
    cases hslot
    rfl

/-- The search for a key that the table does not hold ends in a slot that was never used, or,
when there is none, in the first slot. -/
theorem Good.locate_missing (hg : Good h) (hnone : h.lookup key = none) :
    ∃ i, h.locate key = some (i, false) ∧
      (h.slot i = .free ∧ ComesBy (order h.size) h.slot key i ∨
        i = hval h.size key ∧ ∀ j ∈ slots h.size, (h.table j).used ≠ 0) := by
  have hpass : ∀ j ∈ slots h.size, ¬ h.Matches key j := by
    intro j hj hmatch
    refine (hg.sound.get_eq_none hg.covers).mp hnone j hj (h.table j).data ?_
    rw [hmatch.2]
    exact hg.slot_used hmatch.1
  rw [hg.locate_eq]
  rcases hseek : seek (order h.size) h.slot key with _ | i
  · -- the search has come round to where it began
    refine ⟨hval h.size key, rfl, Or.inr ⟨rfl, fun j hj hzero => ?_⟩⟩
    have hstops := (seek_eq_none hg.covers).mp hseek j hj
    rw [(hg.stops_iff key hj).mpr (Or.inl hzero)] at hstops
    cases hstops
  · obtain ⟨hstops, hcomes⟩ := seek_eq_some.mp hseek
    have hi := hcomes.mem hg.covers
    have hzero := ((hg.stops_iff key hi).mp hstops).resolve_right (hpass i hi)
    refine ⟨i, ?_, Or.inl ⟨if_pos hzero, hcomes⟩⟩
    show some (i, decide ((h.table i).used ≠ 0)) = _
    rw [decide_eq_false (not_not.mpr hzero)]

/-- The table is full exactly when the map is. -/
theorem Good.full_iff (hg : Good h) :
    h.filled = h.size ↔ {k | h.lookup k ≠ none}.ncard = h.size := by
  rw [hg.filled, hg.sound.load_eq hg.covers]
  rfl

/-- **Finding** an entry. -/
theorem Good.find_spec (hg : Good h) (key : Text) :
    ∃ r, hsearchR h key .find = some r ∧ r.htab = h ∧ r.retval.map Entry.data = h.lookup key ∧
      (r.ret = 0 ↔ h.lookup key = none) := by
  rcases hlookup : h.lookup key with _ | d
  · obtain ⟨i, hlocate, -⟩ := hg.locate_missing hlookup
    refine ⟨⟨h, 0, none⟩, ?_, rfl, rfl, iff_of_true rfl rfl⟩
    rw [hsearchR, hlocate]
    rfl
  · obtain ⟨i, hi, hslot⟩ := hg.lookup_eq_some.mp hlookup
    obtain ⟨hlocate, -, hdata⟩ := hg.locate_found hi hslot
    refine ⟨⟨h, i, some (h.table i)⟩, ?_, rfl, ?_, ?_⟩
    · rw [hsearchR, hlocate]
      rfl
    · exact congrArg some hdata
    · have := (Finset.mem_Icc.mp hi).1
      exact iff_of_false (fun hzero : i = 0 => by omega) (by simp)

/-- What a change of one slot leaves of the invariant. -/
theorem Good.set (hg : Good h) (i : ℕ) {e : Entry} {filled : ℕ}
    (hused : e.used = 0 ∨ e.used = -1 ∨ e.used = hval h.size e.key)
    (hsound : Sound (order h.size) (slots h.size) (Function.update h.slot i e.slot))
    (hfilled : filled = load (slots h.size) (Function.update h.slot i e.slot)) :
    Good { h.set i e with filled := filled } := by
  refine ⟨hg.prime, hg.size_gt, fun j hj => ?_, ?_, ?_⟩
  · show (Function.update h.table i e j).used = 0 ∨ (Function.update h.table i e j).used = -1 ∨
      (Function.update h.table i e j).used = hval h.size (Function.update h.table i e j).key
    by_cases hji : j = i
    · rw [hji, Function.update_self]
      exact hused
    · rw [Function.update_of_ne hji]
      exact hg.used j hj
  · have hslot := h.set_slot i e
    rw [← hslot] at hsound
    exact hsound
  · have hslot := h.set_slot i e
    rw [← hslot] at hfilled
    exact hfilled

/-- **Deleting** an entry. -/
theorem Good.delete_spec (hg : Good h) (key : Text) :
    ∃ h' ret, hdeleteR h key = some (h', ret) ∧ Good h' ∧ h'.size = h.size ∧
      h'.lookup = Function.update h.lookup key none ∧ (ret = 0 ↔ h.lookup key = none) := by
  rcases hlookup : h.lookup key with _ | d
  · obtain ⟨i, hlocate, -⟩ := hg.locate_missing hlookup
    refine ⟨h, 0, ?_, hg, rfl, ?_, iff_of_true rfl rfl⟩
    · rw [hdeleteR, hsearchR, hlocate]
      rfl
    · rw [← hlookup, Function.update_eq_self]
  · obtain ⟨i, hi, hslot⟩ := hg.lookup_eq_some.mp hlookup
    obtain ⟨hlocate, -, -⟩ := hg.locate_found hi hslot
    have hpos := (Finset.mem_Icc.mp hi).1
    have hmark : ({ h.table i with used := -1 } : Entry).slot = .deleted := rfl
    have hload : load (slots h.size) (Function.update h.slot i .deleted) + 1 =
        load (slots h.size) h.slot + 0 := by
      have hupdate := load_update (t := h.slot) hi .deleted
      rw [hslot] at hupdate
      exact hupdate
    refine ⟨{ h.set i { h.table i with used := -1 } with filled := h.filled - 1 }, 1, ?_, ?_, rfl,
      ?_, iff_of_false (by decide) (by simp)⟩
    · rw [hdeleteR, hsearchR, hlocate]
      show some (if i = 0 then _ else _) = _
      rw [if_neg (by omega)]
    · refine hg.set i (Or.inr (Or.inl rfl)) ?_ ?_
      · rw [hmark]
        exact hg.sound.delete i
      · rw [hmark, hg.filled]
        omega
    · show get (order h.size) (h.set i { h.table i with used := -1 }).slot = _
      rw [h.set_slot, hmark]
      exact hg.sound.get_delete hg.covers hi hslot

/-- Putting a new entry into a slot that holds none. -/
theorem Good.put (hg : Good h) (hnone : h.lookup key = none)
    (hcomes : ComesBy (order h.size) h.slot key i) (hempty : (h.slot i).key = none) (data : Text) :
    let e : Entry := { used := hval h.size key, key := key, data := data }
    Good { h.set i e with filled := h.filled + 1 } ∧
      (h.set i e).lookup = Function.update h.lookup key (some data) := by
  intro e
  have hslot : e.slot = .used key data := hg.slot_used rfl
  have hi := hcomes.mem hg.covers
  have honly : ∀ j ∈ slots h.size, ∀ d, h.slot j = .used key d → j = i := fun j hj d hused =>
    absurd hused ((hg.sound.get_eq_none hg.covers).mp hnone j hj d)
  have hload : load (slots h.size) (Function.update h.slot i (.used key data)) + 0 =
      load (slots h.size) h.slot + 1 := by
    have hupdate := load_update (t := h.slot) hi (.used key data)
    rw [hempty] at hupdate
    exact hupdate
  constructor
  · refine hg.set i (Or.inr (Or.inr rfl)) ?_ ?_
    · rw [hslot]
      exact hg.sound.put hcomes honly data
    · rw [hslot, hg.filled]
      exact hload.symm
  · show get (order h.size) (h.set i e).slot = _
    rw [h.set_slot, hslot]
    refine hg.sound.get_put hg.covers hcomes honly data fun l w hused => ?_
    rw [hused] at hempty
    cases hempty

/-- Writing new data to an entry. -/
theorem Good.overwrite (hg : Good h) (hi : i ∈ slots h.size) {d : Text}
    (hused : h.slot i = .used key d) (hmatch : h.Matches key i) (data : Text) :
    let e : Entry := { h.table i with data := data }
    Good (h.set i e) ∧ (h.set i e).lookup = Function.update h.lookup key (some data) := by
  intro e
  have hslot : e.slot = .used key data := by
    rw [hmatch.2]
    exact hg.slot_used hmatch.1
  have hcomes := (seek_eq_some.mp (hg.sound i hi key d hused)).2
  have honly : ∀ j ∈ slots h.size, ∀ w, h.slot j = .used key w → j = i :=
    fun j hj w hw => hg.sound.unique hj hi hw hused
  have hload : load (slots h.size) (Function.update h.slot i (.used key data)) + 1 =
      load (slots h.size) h.slot + 1 := by
    have hupdate := load_update (t := h.slot) hi (.used key data)
    rw [hused] at hupdate
    exact hupdate
  constructor
  · refine hg.set i (Or.inr (Or.inr ?_)) ?_ ?_
    · show (h.table i).used = hval h.size (h.table i).key
      rw [← hmatch.2]
      exact hmatch.1
    · rw [hslot]
      exact hg.sound.put hcomes honly data
    · rw [hslot]
      show h.filled = _
      rw [hg.filled]
      omega
  · show get (order h.size) (h.set i e).slot = _
    rw [h.set_slot, hslot]
    refine hg.sound.get_put hg.covers hcomes honly data fun l w hw => ?_
    rw [hused] at hw
    cases hw
    rfl

/-- The search comes by the first slot. -/
theorem Good.comesBy_hval (hg : Good h) (key : Text) :
    ComesBy (order h.size) h.slot key (hval h.size key) := by
  have hsize := hg.size_gt
  refine ⟨[], List.iterate (next h.size (hval2 h.size key))
    (next h.size (hval2 h.size key) (hval h.size key)) (h.size - 1), ?_, fun j hj => by simp at hj⟩
  exact orbit_eq (by omega)

/-- A new entry goes to the first slot, if that holds a mark, or else to where the search has
ended. -/
theorem hsearchR_new (hlocate : h.locate key = some (i, false)) (hfull : h.filled ≠ h.size)
    (data : Text) :
    hsearchR h key (.enter data) = some
      (let idx := if (h.table (hval h.size key)).used = -1 then hval h.size key else i
      let e : Entry := { used := hval h.size key, key := key, data := data }
      ⟨{ h.set idx e with filled := h.filled + 1 }, 1, some e⟩) := by
  rw [hsearchR, hlocate]
  show some (if h.filled = h.size then _ else _) = _
  rw [if_neg hfull]

/-- **Entering** data under a key. -/
theorem Good.enter_spec (hg : Good h) (key data : Text) (hkeeps : ¬ h.Clobbers key) :
    ∃ r, hsearchR h key (.enter data) = some r ∧ Good r.htab ∧ r.htab.size = h.size ∧
      if h.lookup key = none ∧ h.filled = h.size then r.htab = h ∧ r.retval = none
      else r.htab.lookup = Function.update h.lookup key (some data) ∧
        r.retval.map Entry.data = some data := by
  rcases hlookup : h.lookup key with _ | d
  · obtain ⟨i, hlocate, hplace⟩ := hg.locate_missing hlookup
    by_cases hfull : h.filled = h.size
    · refine ⟨⟨h, 0, none⟩, ?_, hg, rfl, ?_⟩
      · rw [hsearchR, hlocate]
        show some (if h.filled = h.size then _ else _) = _
        rw [if_pos hfull]
      · rw [if_pos ⟨rfl, hfull⟩]
        exact ⟨rfl, rfl⟩
    · have henter := hsearchR_new hlocate hfull data
      by_cases hmark : (h.table (hval h.size key)).used = -1
      · rw [if_pos hmark] at henter
        have hempty : (h.slot (hval h.size key)).key = none := by
          rw [Htab.slot, Entry.slot, hmark]
          rfl
        obtain ⟨hgood, hlookup'⟩ := hg.put hlookup (hg.comesBy_hval key) hempty data
        refine ⟨_, henter, hgood, rfl, ?_⟩
        rw [if_neg fun h => hfull h.2]
        exact ⟨hlookup', rfl⟩
      · rw [if_neg hmark] at henter
        rcases hplace with ⟨hfree, hcomes⟩ | ⟨-, hnone⟩
        · have hempty : (h.slot i).key = none := by rw [hfree]; rfl
          obtain ⟨hgood, hlookup'⟩ := hg.put hlookup hcomes hempty data
          refine ⟨_, henter, hgood, rfl, ?_⟩
          rw [if_neg fun h => hfull h.2]
          exact ⟨hlookup', rfl⟩
        · exact absurd ⟨hlookup, hfull, hnone, hmark⟩ hkeeps
  · obtain ⟨i, hi, hused⟩ := hg.lookup_eq_some.mp hlookup
    obtain ⟨hlocate, hmatch, -⟩ := hg.locate_found hi hused
    obtain ⟨hgood, hlookup'⟩ := hg.overwrite hi hused hmatch data
    refine ⟨⟨h.set i { h.table i with data := data }, i, some { h.table i with data := data }⟩, ?_,
      hgood, rfl, ?_⟩
    · rw [hsearchR, hlocate]
      rfl
    · rw [if_neg fun h => by cases h.1]
      exact ⟨hlookup', rfl⟩

/-- **One step of the table** is one of the map. -/
theorem Good.step (hg : Good h) (op : Op)
    (hkeeps : ∀ key data, op = .enter key data → ¬ h.Clobbers key) :
    Good (h.step op).1 ∧ (h.step op).1.size = h.size ∧
      ((h.step op).1.lookup, (h.step op).2) = mapStep h.size h.lookup op := by
  cases op with
  | find key =>
    obtain ⟨r, hfind, hhtab, hdata, -⟩ := hg.find_spec key
    rw [Htab.step, hfind]
    dsimp only
    rw [hhtab, hdata]
    exact ⟨hg, rfl, rfl⟩
  | enter key data =>
    obtain ⟨r, henter, hgood, hsize, hresult⟩ := hg.enter_spec key data (hkeeps key data rfl)
    rw [Htab.step, henter]
    refine ⟨hgood, hsize, ?_⟩
    rw [mapStep]
    dsimp only
    by_cases hfull : h.lookup key = none ∧ h.filled = h.size
    · rw [if_pos hfull] at hresult
      rw [if_pos ⟨hfull.1, hg.full_iff.mp hfull.2⟩, hresult.1, hresult.2]
      rfl
    · rw [if_neg hfull] at hresult
      rw [if_neg fun h => hfull ⟨h.1, hg.full_iff.mpr h.2⟩, hresult.1, hresult.2]
  | delete key =>
    obtain ⟨h', ret, hdelete, hgood, hsize, hlookup, hret⟩ := hg.delete_spec key
    rw [Htab.step, hdelete]
    refine ⟨hgood, hsize, ?_⟩
    have hanswer : decide (ret ≠ 0) = (h.lookup key).isSome := by
      rw [Bool.eq_iff_iff, decide_eq_true_iff, Option.isSome_iff_ne_none]
      exact not_congr hret
    rw [mapStep, ← hlookup, ← hanswer]

end Steps

/-- The step overwrites another entry. -/
def Htab.Loses (h : Htab) : Op → Prop
  | .enter key _ => h.Clobbers key
  | _ => False

instance (h : Htab) : DecidablePred h.Loses := fun op => by
  cases op with
  | find key => exact isFalse id
  | enter key data => exact inferInstanceAs (Decidable (h.Clobbers key))
  | delete key => exact isFalse id

/-- An empty table. -/
theorem good_hcreateR {nel : ℕ} (hnel : 4 ≤ nel) : Good (hcreateR nel) := by
  obtain ⟨hprime, hle, -⟩ := hcreateR_prime hnel
  have hgt : 3 < (hcreateR nel).size := by
    omega
  have hload : load (slots (hcreateR nel).size) (hcreateR nel).slot = 0 := by
    rw [load, Finset.card_eq_zero, Finset.filter_eq_empty_iff]
    exact fun i _ hused => by cases hused
  exact ⟨hprime, hgt, fun i _ => Or.inl rfl, fun i _ k v hused => (by cases hused), hload.symm⟩

theorem Good.run {h : Htab} (hg : Good h) {ops : List Op}
    (hkeeps : Run.AllSteps Htab.step (fun h op => ¬ h.Loses op) h ops) :
    Good (Run.exec Htab.step h ops) ∧
      (Run.exec Htab.step h ops).lookup = Run.exec (mapStep h.size) h.lookup ops ∧
      Run.outputs Htab.step h ops = Run.outputs (mapStep h.size) h.lookup ops := by
  induction ops generalizing h with
  | nil => exact ⟨hg, rfl, rfl⟩
  | cons op ops ih =>
    obtain ⟨hhead, htail⟩ := hkeeps
    obtain ⟨hgood, hsize, hstep⟩ := hg.step op fun key data hop => by
      rw [hop] at hhead
      exact hhead
    obtain ⟨hgood', hlookup, hout⟩ := ih hgood htail
    rw [hsize] at hlookup hout
    have hfst : (h.step op).1.lookup = (mapStep h.size h.lookup op).1 := congrArg Prod.fst hstep
    have hsnd : (h.step op).2 = (mapStep h.size h.lookup op).2 := congrArg Prod.snd hstep
    rw [hfst] at hlookup hout
    refine ⟨hgood', hlookup, ?_⟩
    rw [Run.outputs_cons, Run.outputs_cons, hout, hsnd]

/-- **The table is a map.**  From an empty table on, as long as no step overwrites another
entry, every search ends and every answer is that of a map of as many variables as there are
slots. -/
theorem refines_run (nel : ℕ) (hnel : 4 ≤ nel) (ops : List Op)
    (hkeeps : Run.AllSteps Htab.step (fun h op => ¬ h.Loses op) (hcreateR nel) ops) :
    Run.outputs Htab.step (hcreateR nel) ops =
        Run.outputs (mapStep (hcreateR nel).size) (fun _ => none) ops ∧
      (Run.exec Htab.step (hcreateR nel) ops).lookup =
        Run.exec (mapStep (hcreateR nel).size) (fun _ => none) ops := by
  have hg := good_hcreateR hnel
  have hempty : (hcreateR nel).lookup = fun _ => none := by
    funext key
    exact (hg.sound.get_eq_none hg.covers).mpr fun i _ v hused => by cases hused
  obtain ⟨-, hlookup, hout⟩ := hg.run hkeeps
  rw [hempty] at hlookup hout
  exact ⟨hout, hlookup⟩

/-- A table of five slots in which every slot has been used, and one entry deleted. -/
def worn : List Op :=
  (["a", "b", "e", "d", "c"].map fun name => .enter (CString.ascii name) (CString.ascii "1")) ++
    [.delete (CString.ascii "e")]

theorem refines_run_worn :
    Run.outputs Htab.step (hcreateR 4) worn =
        Run.outputs (mapStep (hcreateR 4).size) (fun _ => none) worn ∧
      (Run.exec Htab.step (hcreateR 4) worn).lookup =
        Run.exec (mapStep (hcreateR 4).size) (fun _ => none) worn :=
  refines_run 4 (by decide) worn (by decide)

/-- A new entry that overwrites another one. -/
theorem Good.clobber {h : Htab} {key : Text} (hg : Good h) (hclobbers : h.Clobbers key)
    (data : Text) :
    ∃ r l d, hsearchR h key (.enter data) = some r ∧ l ≠ key ∧ h.lookup l = some d ∧
      r.htab.lookup l = none := by
  obtain ⟨hnone, hfull, hall, hmark⟩ := hclobbers
  have hmem := hval_mem hg.size_gt key
  obtain ⟨i, hlocate, hplace⟩ := hg.locate_missing hnone
  have hi : i = hval h.size key := by
    rcases hplace with ⟨hfree, hcomes⟩ | ⟨hi, -⟩
    · refine absurd ?_ (hall i (hcomes.mem hg.covers))
      by_contra hused
      rw [Htab.slot, Entry.slot, if_neg hused] at hfree
      split at hfree <;> cases hfree
    · exact hi
  -- the entry that is in the first slot
  have hused : (h.table i).used = hval h.size (h.table i).key := by
    rw [hi]
    rcases hg.used _ hmem with hzero | hmark' | hused
    · exact absurd hzero (hall _ hmem)
    · exact absurd hmark' hmark
    · exact hused
  have hslot : h.slot i = .used (h.table i).key (h.table i).data := hg.slot_used hused
  have hbefore : h.lookup (h.table i).key = some (h.table i).data :=
    hg.lookup_eq_some.mpr ⟨i, hi ▸ hmem, hslot⟩
  have hne : (h.table i).key ≠ key := by
    intro heq
    rw [heq, hnone] at hbefore
    cases hbefore
  have hcomes : ComesBy (order h.size) h.slot key i := hi ▸ hg.comesBy_hval key
  have honly : ∀ j ∈ slots h.size, ∀ d, h.slot j = .used key d → j = i := fun j hj d hd =>
    absurd hd ((hg.sound.get_eq_none hg.covers).mp hnone j hj d)
  have henter := hsearchR_new hlocate hfull data
  rw [if_neg hmark] at henter
  refine ⟨_, (h.table i).key, (h.table i).data, henter, hne, hbefore, ?_⟩
  show get (order h.size)
    (h.set i { used := hval h.size key, key := key, data := data }).slot (h.table i).key = none
  rw [h.set_slot, hg.slot_used rfl, Option.eq_none_iff_forall_ne_some]
  intro w hw
  have hput := hg.sound.put hcomes honly data
  obtain ⟨hsame, hother⟩ := (hg.sound.get_update hput hg.covers (hi ▸ hmem)
    (fun v hv => hne (by cases hv; rfl))).mp hw
  have hsame' : h.lookup (h.table i).key = some w := hsame
  rw [hbefore] at hsame'
  cases hsame'
  exact hother hslot

/-- **When an entry keeps the others.**  In every run without such a step, entering data
under a key keeps the data of all other keys unless the new entry overwrites another one. -/
theorem enter_keeps_iff (nel : ℕ) (hnel : 4 ≤ nel) (ops : List Op)
    (hkeeps : Run.AllSteps Htab.step (fun h op => ¬ h.Loses op) (hcreateR nel) ops)
    (key data : Text) :
    let h := Run.exec Htab.step (hcreateR nel) ops
    ∃ r, hsearchR h key (.enter data) = some r ∧
      ((∀ l, l ≠ key → r.htab.lookup l = h.lookup l) ↔ ¬ h.Clobbers key) := by
  intro h
  have hg : Good h := ((good_hcreateR hnel).run hkeeps).1
  by_cases hclobbers : h.Clobbers key
  · obtain ⟨r, l, d, henter, hne, hbefore, hafter⟩ := hg.clobber hclobbers data
    refine ⟨r, henter, iff_of_false (fun hall => ?_) (not_not.mpr hclobbers)⟩
    have hsame := hall l hne
    rw [hbefore, hafter] at hsame
    cases hsame
  · obtain ⟨r, henter, -, -, hresult⟩ := hg.enter_spec key data hclobbers
    refine ⟨r, henter, iff_of_true (fun l hl => ?_) hclobbers⟩
    split at hresult
    · rw [hresult.1]
    · rw [hresult.1, Function.update_of_ne hl]

/-- Setting a sixth variable loses the first one. -/
theorem enter_keeps_iff_worn :
    ∃ r, hsearchR (Run.exec Htab.step (hcreateR 4) worn) (CString.ascii "f")
        (.enter (CString.ascii "1")) = some r ∧
      ¬ ∀ l, l ≠ CString.ascii "f" →
        r.htab.lookup l = (Run.exec Htab.step (hcreateR 4) worn).lookup l := by
  obtain ⟨r, henter, hiff⟩ := enter_keeps_iff 4 (by decide) worn (by decide) (CString.ascii "f")
    (CString.ascii "1")
  exact ⟨r, henter, fun hall => hiff.mp hall (by decide)⟩

end Hashtable
