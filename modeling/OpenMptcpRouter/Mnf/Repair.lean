/-
`mnf repair`.

A repair reads every field from the chip, shows it as text, asks the restore function of
the field whether the text is valid, and puts an encoded default into the cache when it is
not.

* `valid_repaired` — the default of every field survives being stored and shown, and is
  then valid;
* `repair_spec` — **a repair is sound and idempotent**: afterwards every field is valid,
  the fields that were valid hold the same bytes, and a second repair changes nothing.
-/
import OpenMptcpRouter.Mnf.Codec
import OpenMptcpRouter.Mnf.Store

namespace Mnf

open CString Fallible Regions

/-- `mnf repair` with these flags. -/
def repairCmd (argv : List CStr) : List CStr := .ofText (ascii "repair") :: argv

/-- The restore function of the field takes these bytes, shown as text, for valid. -/
def Valid (rand : ℕ) (field : MnfField) (bytes : Text) : Prop :=
  (restoreFunc field rand (mnfFieldToStr field bytes)).1 = false

instance (rand : ℕ) (field : MnfField) (bytes : Text) : Decidable (Valid rand field bytes) :=
  inferInstanceAs (Decidable (_ = false))

/-- What a repair without `FORCE` leaves in a field that held `bytes`. -/
def repaired (hw : Hw) (field : MnfField) (bytes : Text) : Text :=
  if Valid hw.rand field bytes then bytes
  else (mnfStrToField field (restoredStr hw field bytes)).2

section Defaults

variable {field : MnfField}

/-- Validity does not depend on the random number. -/
theorem valid_congr {rand : ℕ} (rand' : ℕ) {bytes : Text} (h : Valid rand field bytes) :
    Valid rand' field bytes := by
  rw [Valid, restoreFunc] at h ⊢
  cases hr : field.restore <;> rw [hr] at h <;> exact h

/-- How a text that is long enough begins, seen as a C string. -/
theorem strncmpEq_append {v : Text} (hv : (0 : UInt8) ∉ v) (rest : Text) :
    strncmpEq (v ++ rest) v v.length = true := by
  have hself : cstr v = v := by
    rw [← List.append_nil v, cstr_append hv]
    rfl
  rw [strncmpEq, cstr_append hv, hself, List.take_left, List.take_length, beq_self_eq_true]

/-- The digits of an address are hex digits. -/
theorem isHexDigit_mac (rand : ℕ) (old : Text) : (restoreMac rand old).2.all isHexDigit = true := by
  have hdigit : ∀ d < 16, isHexDigit (toupper ((ascii "0123456789abcdef")[d]?.getD 0)) = true := by
    decide
  rw [restoreMac, List.all_map, List.all_append, Bool.and_eq_true]
  refine ⟨by decide, ?_⟩
  rw [hex06, List.all_map, List.all_eq_true]
  intro i _
  exact hdigit _ (Nat.mod_lt _ (by decide))

/-- A default address fills its field, is shown as it is, and begins with our VID. -/
theorem valid_mac (hrestore : field.restore = .mac) (hbin : field.binary = true)
    (hlen : field.length = 6) {rand : ℕ} (rand' : ℕ) {old : Text} (t : CStr)
    (ht : t.text = (restoreFunc field rand old).2) : Valid rand' field (mnfStrToField field t).2 := by
  rw [restoreFunc, hrestore] at ht
  change t.text = (restoreMac rand old).2 at ht
  have htwelve : t.text.length = 2 * field.length := by
    rw [ht, hlen, restoreMac, List.length_map, List.length_append, hex06, List.length_map,
      List.length_range]
    rfl
  have hhex : t.text.all isHexDigit = true := by
    rw [ht]
    exact isHexDigit_mac rand old
  -- twelve hex digits fill the field, so they come back as they were written
  have hcodec := (hexCodec_iff hbin t (by omega)).mpr fun hshort => by
    have := hshort.short
    omega
  have hok : (mnfStrToField field t).1 = false := hcodec.accepts.mpr ⟨by omega, hhex⟩
  rw [Valid, restoreFunc, hrestore, hcodec.shows hok, htwelve, Nat.sub_self, List.replicate_zero,
    List.append_nil, ht]
  have hfront : ((restoreMac rand old).2).map toupper =
      macVid ++ ((hex06 (rand % 2 ^ 24)).map toupper).map toupper := by
    rw [restoreMac, List.map_append, List.map_append]
    rfl
  have hvid := strncmpEq_append (v := macVid) (by decide)
    (((hex06 (rand % 2 ^ 24)).map toupper).map toupper)
  rw [hfront]
  simp only [restoreMac, hvid, Bool.not_true]

/-- An ASCII default that fills its text field is shown as it is. -/
theorem shown_default (hbin : field.binary = false) (t : CStr) (hlen : t.text.length = field.length)
    (hascii : t.text.all (· < 0x80) = true) :
    mnfFieldToStr field (mnfStrToField field t).2 = t.text := by
  rw [shown_text hbin t fun c hc => by simpa using List.all_eq_true.mp hascii c hc, ← hlen,
    List.take_length]

theorem valid_name (hrestore : field.restore = .name) (hbin : field.binary = false)
    (hlen : field.length = 12) {rand : ℕ} (rand' : ℕ) {old : Text} (t : CStr)
    (ht : t.text = (restoreFunc field rand old).2) : Valid rand' field (mnfStrToField field t).2 := by
  rw [restoreFunc, hrestore] at ht
  change t.text = ascii "RUTX08000000" at ht
  rw [Valid, restoreFunc, hrestore, shown_default hbin t (by rw [ht, hlen]; rfl)
    (by rw [ht]; decide), ht]
  change (restoreName (ascii "RUTX08000000")).1 = false
  decide

theorem valid_num (hrestore : field.restore = .num) (hbin : field.binary = false) {rand : ℕ}
    (rand' : ℕ) {old : Text} (t : CStr) (ht : t.text = (restoreFunc field rand old).2) :
    Valid rand' field (mnfStrToField field t).2 := by
  rw [restoreFunc, hrestore] at ht
  change t.text = List.replicate field.length 48 at ht
  have hascii : t.text.all (· < 0x80) = true := by
    rw [ht, List.all_eq_true]
    intro c hc
    rw [List.eq_of_mem_replicate hc]
    rfl
  rw [Valid, restoreFunc, hrestore, shown_default hbin t (by rw [ht, List.length_replicate]) hascii,
    ht]
  change (!(List.range field.length).all _) = false
  rw [Bool.not_eq_false', List.all_eq_true]
  intro i hi
  rw [List.getElem?_replicate, if_pos (List.mem_range.mp hi), Option.getD_some]
  rfl

/-- The table's fields have the form their defaults are made for. -/
theorem form_of_mem (h : field ∈ mnfFields) :
    (field.restore = .mac → field.binary = true ∧ field.length = 6) ∧
      (field.restore = .name → field.binary = false ∧ field.length = 12) ∧
      (field.restore = .num → field.binary = false) := by
  have hall : ∀ f ∈ mnfFields, (f.restore = .mac → f.binary = true ∧ f.length = 6) ∧
      (f.restore = .name → f.binary = false ∧ f.length = 12) ∧
      (f.restore = .num → f.binary = false) := by decide
  exact hall field h

/-- **Every default is valid once it has been stored and is shown again.** -/
theorem valid_default (h : field ∈ mnfFields) (hw : Hw) (rand : ℕ) (old : Text) :
    Valid rand field (mnfStrToField field (restoredStr hw field old)).2 := by
  obtain ⟨hmac, hname, hnum⟩ := form_of_mem h
  cases hr : field.restore with
  | mac => exact valid_mac hr (hmac hr).1 (hmac hr).2 rand _ rfl
  | name => exact valid_name hr (hname hr).1 (hname hr).2 rand _ rfl
  | num => exact valid_num hr (hnum hr) rand _ rfl
  | clear =>
    rw [Valid, restoreFunc, hr]
    rfl

theorem valid_repaired (h : field ∈ mnfFields) (hw : Hw) (rand : ℕ) (bytes : Text) :
    Valid rand field (repaired hw field bytes) := by
  rw [repaired]
  split
  · rename_i hvalid
    exact valid_congr rand hvalid
  · exact valid_default h hw rand bytes

end Defaults

section Runs

variable {s : Board} {hw : Hw} {argv : List CStr} {field : MnfField}

theorem updates_repairCmd (hforce : forced argv = false) (l : Ledger) :
    updates hw l (repairCmd argv) = mnfFields.flatMap (repairUpdate hw false l) := by
  rw [← hforce]
  rfl

/-- The update of a field, and what it makes of the field. -/
theorem updateAll_repairUpdate (l : Ledger) (field : MnfField) :
    updateAll l (repairUpdate hw false l field) field = repaired hw field (l field) := by
  rw [repairUpdate, repaired, Bool.or_false]
  by_cases h : Valid hw.rand field (l field)
  · have hkeep : (restored hw field (l field)).1 = false := h
    rw [if_pos h, hkeep]
    rfl
  · have hrestore : (restored hw field (l field)).1 = true := by
      rw [Valid, Bool.not_eq_false] at h
      exact h
    rw [if_neg h, hrestore]
    exact Function.update_self ..

/-- A repair that succeeds did erase and write. -/
theorem writes_of_repair (h : (step s (hw, repairCmd argv)).2 = true) :
    Writes (hw, repairCmd argv) := by
  have hrepair : Triple (fun _ => True) (doRepair hw argv)
      (fun _ _ => hw.eraseFails = none ∧ hw.writeFails = none) (fun _ => True) := by
    refine triple_bind (triple_trivial _) fun flags => triple_bind (triple_trivial _) fun _ => ?_
    refine triple_bind (triple_trivial _) fun _ => triple_bind (triple_trivial _) fun _ => ?_
    exact triple_finish_writes
  obtain ⟨-, hwrites⟩ := hrepair.of_isOk (s := s) trivial h
  exact hwrites

/-- What a field holds after a successful repair. -/
theorem content_of_repair (hforce : forced argv = false)
    (h : (step s (hw, repairCmd argv)).2 = true) (hfield : field ∈ mnfFields) :
    content (step s (hw, repairCmd argv)).1.flash field =
      repaired hw field (content s.flash field) := by
  let t : Tracked := ⟨s, content s.flash⟩
  rcases step_cases (t := t) (writes_of_repair h) with ⟨-, hflash⟩ | ⟨herr, -⟩
  · have hnodup : mnfFields.Nodup := by decide
    rw [hflash, ← updateAll_repairUpdate, ← updateAll_flatMap
      (fun k w hw' => (repairUpdate_field hw').1) hnodup hfield, ← updates_repairCmd hforce]
    exact window_putAll (K := fun field => field ∈ mnfFields) apart_mnfFields (fun _ _ => rfl)
      fits_updates (fun w hw' => targets_subset (updates_targets hw').1) hfield
  · exact absurd (h.symm.trans herr) (by decide)

/-- A repair of valid fields changes nothing, whether it succeeds or not. -/
theorem repair_of_valid (hforce : forced argv = false) (hwrites : Writes (hw, repairCmd argv))
    (hvalid : ∀ field ∈ mnfFields, Valid hw.rand field (content s.flash field)) :
    (step s (hw, repairCmd argv)).1.flash = s.flash := by
  let t : Tracked := ⟨s, content s.flash⟩
  rcases step_cases (t := t) hwrites with ⟨-, hflash⟩ | ⟨-, hflash⟩
  · have hnil : updates hw (content s.flash) (repairCmd argv) = [] := by
      rw [updates_repairCmd hforce, List.flatMap_eq_nil_iff]
      intro field hfield
      have hkeep : (restored hw field (content s.flash field)).1 = false := hvalid field hfield
      rw [repairUpdate, hkeep]
      rfl
    rw [hflash, hnil]
    rfl
  · exact hflash

end Runs

/-- **A repair is sound and idempotent.**  After a successful `mnf repair` without `FORCE`,
on any chip: every field is valid, every field that was valid holds the bytes it held, and
another repair, at any time and with any answer, leaves the chip as it is. -/
theorem repair_spec {s : Board} {hw : Hw} {argv : List CStr} (hforce : forced argv = false)
    (h : (step s (hw, repairCmd argv)).2 = true) :
    (∀ field ∈ mnfFields, ∀ rand,
        Valid rand field (content (step s (hw, repairCmd argv)).1.flash field)) ∧
      (∀ field ∈ mnfFields, ∀ rand, Valid rand field (content s.flash field) →
        content (step s (hw, repairCmd argv)).1.flash field = content s.flash field) ∧
      ∀ hw' argv', forced argv' = false → Writes (hw', repairCmd argv') →
        (step (step s (hw, repairCmd argv)).1 (hw', repairCmd argv')).1.flash =
          (step s (hw, repairCmd argv)).1.flash := by
  have hcontent : ∀ field ∈ mnfFields,
      content (step s (hw, repairCmd argv)).1.flash field =
        repaired hw field (content s.flash field) :=
    fun field hfield => content_of_repair hforce h hfield
  have hvalid : ∀ field ∈ mnfFields, ∀ rand,
      Valid rand field (content (step s (hw, repairCmd argv)).1.flash field) := by
    intro field hfield rand
    rw [hcontent field hfield]
    exact valid_repaired hfield hw rand _
  refine ⟨hvalid, fun field hfield rand hold => ?_, fun hw' argv' hforce' hwrites' => ?_⟩
  · rw [hcontent field hfield, repaired, if_pos (valid_congr hw.rand hold)]
  · exact repair_of_valid hforce' hwrites' fun field hfield => hvalid field hfield hw'.rand

/-- The repair of an erased chip. -/
theorem repair_spec_erased :
    forced [.ofText (ascii "CONFIRM")] = false ∧
      (step .erased (.working, repairCmd [.ofText (ascii "CONFIRM")])).2 = true ∧
      ∀ field ∈ mnfFields, ∀ rand, Valid rand field
        (content (step .erased (.working, repairCmd [.ofText (ascii "CONFIRM")])).1.flash field) :=
  ⟨by decide, by decide, (repair_spec (by decide) (by decide)).1⟩

end Mnf
