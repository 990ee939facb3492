/-
The environment as text (`hexport_r`, `himport_r`).

Every variable is a line `name=value`, ended by a separator.  In the value, the separator and
the backslash are escaped by a backslash.  With the separator NUL, that of the saved
environment, the room for the escapes is not counted (`totlen`), though they are written.

* `parseLine_line` — a line that was written is read back;
* `import_export` — **what is exported is imported again**;
* `hexportR_fits_iff` — when what is exported fits the buffer.
-/
import OpenMptcpRouter.Hashtable.Qsort
import OpenMptcpRouter.Hashtable.Store

namespace Hashtable

open OpenAddressing

/-! ### Export -/

/-- `strcmp`: the first difference, as a signed character. -/
def strcmp : Text → Text → ℤ
  | [], [] => 0
  | [], d :: _ => (0 - d).toInt8.toInt
  | c :: _, [] => c.toInt8.toInt
  | c :: cs, d :: ds => if c ≠ d then (c - d).toInt8.toInt else strcmp cs ds

/-- `cmpkey`. -/
def cmpkey (e e' : Entry) : ℤ := strcmp e.key e'.key

/-- The entries that pass 1 of `hexport_r` lists; all of them, if no names are given. -/
def Htab.list (h : Htab) (argv : List Text) : List Entry :=
  ((List.range' 1 h.size).map h.table).filter fun e => 0 < e.used ∧ (argv = [] ∨ e.key ∈ argv)

/-- A list, sorted by `qsort`. -/
def sorted (es : List Entry) : List Entry :=
  (List.range es.length).map
    (qsort cmpkey es.length fun i => es.getD i { used := 0, key := [], data := [] })

def backslash : UInt8 := 0x5c

/-- The value of a line. -/
def escape (sep : UInt8) (data : Text) : Text :=
  data.flatMap fun c => if c = sep ∨ c = backslash then [backslash, c] else [c]

/-- A line. -/
def Entry.line (sep : UInt8) (e : Entry) : Text := e.key ++ 0x3d :: (escape sep e.data ++ [sep])

/-- The room for the lines. -/
def totlen (sep : UInt8) (es : List Entry) : ℕ :=
  (es.map fun e => e.key.length + 2 +
    (if sep = 0 then e.data.length else (escape sep e.data).length) + 2).sum

/-- The size `hexport_r` returns, and all it writes from the start of the buffer on. -/
structure Exported where
  size : ℕ
  written : Text

/-- `hexport_r`. -/
def hexportR (h : Htab) (sep : UInt8) (size : ℕ) (argv : List Text) : Option Exported :=
  let es := h.list argv
  if size ≠ 0 ∧ size < totlen sep es + 1 then none
  else
    let size := if size = 0 then totlen sep es + 1 else size
    let text := (sorted es).flatMap (Entry.line sep)
    some ⟨size, text ++ 0 :: List.replicate (size - text.length - 1) 0⟩

/-! ### Import -/

/-- `isblank`. -/
def isblank (c : UInt8) : Bool := c = 0x20 || c = 0x09

/-- What a line does. -/
inductive Line
  | comment
  | delete (name : Text)
  | enter (name value : Text)
  deriving DecidableEq

/-- The loop that parses a value, and what is behind it; `none` if it runs on beyond all of
`text`. -/
def unescape (sep : UInt8) : (text : Text) → Option (Text × Text)
  | [] => none
  | c :: rest =>
    if c = 0 ∨ c = sep then some ([], rest)
    else if c = backslash then
      match rest with
      | [] => none
      | d :: rest' =>
        if d ≠ 0 then (unescape sep rest').map fun r => (d :: r.1, r.2)
        else (unescape sep (d :: rest')).map fun r => (c :: r.1, r.2)
    else (unescape sep rest).map fun r => (c :: r.1, r.2)

/-- A character of a name. -/
def isName (sep c : UInt8) : Bool := c ≠ 0x3d ∧ c ≠ 0 ∧ c ≠ sep

/-- A line that is no comment, from its name on. -/
def parsePair (sep : UInt8) (text : Text) : Option (Line × Text) :=
  let name := text.takeWhile (isName sep)
  match text.dropWhile (isName sep) with
  | [] => none
  | c :: rest =>
    if c = 0 then some (.delete name, rest)
    else
      match rest with
      | [] => none
      | d :: rest' =>
        -- "name" and "name="
        if d = 0 ∨ c = sep ∨ d = sep then some (.delete name, if c = 0x3d then rest' else rest)
        else (unescape sep rest).map fun r => (.enter name r.1, r.2)

/-- One round of the loop of `himport_r`, and what is behind the line. -/
def parseLine (sep : UInt8) (text : Text) : Option (Line × Text) :=
  match text.dropWhile isblank with
  | [] => none
  | c :: rest =>
    if c = 0x23 then
      match (c :: rest).dropWhile fun c => c ≠ 0 ∧ c ≠ sep with
      | [] => none
      | _ :: rest => some (.comment, rest)
    else parsePair sep (c :: rest)

/-- The table after a line; `none` if the search does not end, `false` if there is no room. -/
def Htab.line (h : Htab) : Line → Option (Htab × Bool)
  | .comment => some (h, true)
  | .delete name => (hdeleteR h name).map fun r => (r.1, true)
  | .enter name value =>
    (hsearchR h name (.enter value)).map fun r => (r.htab, r.retval.isSome)

/-- The loop of `himport_r` on what is left of the text, `beyond` of it behind the end. -/
def importLoop (sep : UInt8) (beyond : ℕ) : (rounds : ℕ) → Text → Htab → Option (Htab × Bool)
  | 0, _, _ => none
  | rounds + 1, text, h =>
    match parseLine sep text with
    | none => none
    | some (line, rest) =>
      match h.line line with
      | none => none
      | some (h, false) => some (h, false)
      | some (h, true) =>
        if beyond < rest.length ∧ rest.head? ≠ some 0 then importLoop sep beyond rounds rest h
        else some (h, true)

/-- The number of entries the table is made for. -/
def nent (size : ℕ) : ℕ := min (64 + size / 8) 512

/-- `himport_r` of the buffer `env`, with what is in memory behind it; `noclear` is the flag
`H_NOCLEAR`. -/
def himportR (old : Option Htab) (env beyond : Text) (sep : UInt8) (noclear : Bool) :
    Option (Htab × Bool) :=
  let h := if noclear then old.getD (hcreateR (nent env.length)) else hcreateR (nent env.length)
  importLoop sep beyond.length (env ++ beyond).length (env ++ beyond) h

/-! ### One line -/

section Lines

variable {sep : UInt8} {name value rest : Text}

/-- A name that can be read back. -/
structure Name (sep : UInt8) (name : Text) : Prop where
  plain : ∀ c ∈ name, c ≠ 0x3d ∧ c ≠ 0 ∧ c ≠ sep
  head : ∀ c, name.head? = some c → isblank c = false ∧ c ≠ 0x23

/-- A value that can be read back. -/
structure Value (value : Text) : Prop where
  ne_nil : value ≠ []
  plain : 0 ∉ value

theorem escape_cons (sep c : UInt8) (value : Text) : escape sep (c :: value) =
    (if c = sep ∨ c = backslash then [backslash, c] else [c]) ++ escape sep value := rfl

/-- **A value that was escaped is read back**, up to the separator behind it. -/
theorem unescape_escape (hsep : sep ≠ backslash) (hvalue : 0 ∉ value) (rest : Text) :
    unescape sep (escape sep value ++ sep :: rest) = some (value, rest) := by
  induction value with
  | nil =>
    show unescape sep (sep :: rest) = _
    rw [unescape.eq_def]
    exact if_pos (Or.inr rfl)
  | cons c value ih =>
    obtain ⟨hc, hrest⟩ := not_or.mp fun h => hvalue (List.mem_cons.mpr h)
    have hback : ¬ (backslash = 0 ∨ backslash = sep) := by
      rintro (h | h)
      · exact absurd h (by decide)
      · exact hsep h.symm
    rw [escape_cons]
    by_cases hspecial : c = sep ∨ c = backslash
    · rw [if_pos hspecial]
      show unescape sep (backslash :: c :: (escape sep value ++ sep :: rest)) = _
      rw [unescape.eq_def]
      dsimp only
      rw [if_neg hback, if_pos rfl, if_pos (Ne.symm hc), ih hrest]
      rfl
    · rw [if_neg hspecial]
      show unescape sep (c :: (escape sep value ++ sep :: rest)) = _
      rw [unescape.eq_def]
      dsimp only
      rw [if_neg fun h => h.elim (Ne.symm hc) fun h => hspecial (Or.inl h),
        if_neg fun h => hspecial (Or.inr h), ih hrest]
      rfl

theorem escape_head (sep : UInt8) (hsep : sep ≠ backslash) (hvalue : Value value) :
    ∃ d text, escape sep value = d :: text ∧ d ≠ 0 ∧ d ≠ sep := by
  obtain ⟨c, value, rfl⟩ := List.exists_cons_of_ne_nil hvalue.ne_nil
  have hc : c ≠ 0 := fun h => hvalue.plain (h ▸ List.mem_cons_self ..)
  rw [escape_cons]
  by_cases hspecial : c = sep ∨ c = backslash
  · rw [if_pos hspecial]
    exact ⟨backslash, _, rfl, by decide, hsep.symm⟩
  · rw [if_neg hspecial]
    exact ⟨c, _, rfl, hc, fun h => hspecial (Or.inl h)⟩

/-- **A line that was written is read back.** -/
theorem parseLine_line {e : Entry} (hsep : sep ≠ backslash ∧ sep ≠ 0x3d) (hname : Name sep e.key)
    (hvalue : Value e.data) :
    parseLine sep (e.line sep ++ rest) = some (.enter e.key e.data, rest) := by
  obtain ⟨d, text, hescape, hd, hdsep⟩ := escape_head sep hsep.1 hvalue
  have hline : e.line sep ++ rest = e.key ++ 0x3d :: (escape sep e.data ++ sep :: rest) := by
    rw [Entry.line, List.append_assoc, List.cons_append, List.append_assoc]
    rfl
  have hread := unescape_escape hsep.1 hvalue.plain rest
  -- the first character is neither blank nor a comment
  have hstart : ∃ c tail, e.line sep ++ rest = c :: tail ∧ isblank c = false ∧ c ≠ 0x23 := by
    rw [hline]
    rcases hkey : e.key with _ | ⟨c, key⟩
    · exact ⟨0x3d, _, rfl, by decide, by decide⟩
    · obtain ⟨hblank, hhash⟩ := hname.head c (by rw [hkey]; rfl)
      exact ⟨c, _, rfl, hblank, hhash⟩
  have hpair : parsePair sep (e.line sep ++ rest) = some (.enter e.key e.data, rest) := by
    have hall : ∀ c ∈ e.key, isName sep c = true := fun c hc => decide_eq_true (hname.plain c hc)
    have hstop : isName sep 0x3d = false := decide_eq_false fun h => h.1 rfl
    have htake : (e.line sep ++ rest).takeWhile (isName sep) = e.key := by
      rw [hline, List.takeWhile_append_of_pos hall, List.takeWhile_cons_of_neg (by simp [hstop]),
        List.append_nil]
    have hdrop : (e.line sep ++ rest).dropWhile (isName sep) =
        0x3d :: (escape sep e.data ++ sep :: rest) := by
      rw [hline, List.dropWhile_append_of_pos hall, List.dropWhile_cons_of_neg (by simp [hstop])]
    rw [parsePair, htake, hdrop]
    dsimp only
    rw [if_neg (by decide), hread, hescape]
    show (if d = 0 ∨ 0x3d = sep ∨ d = sep then _ else _) = _
    rw [if_neg]
    · rfl
    · rintro (h | h | h)
      · exact hd h
      · exact hsep.2 h.symm
      · exact hdsep h
  obtain ⟨c, tail, hcons, hblank, hhash⟩ := hstart
  rw [hcons] at hpair ⊢
  rw [parseLine, List.dropWhile_cons_of_neg (by simp [hblank])]
  dsimp only
  rw [if_neg hhash]
  exact hpair

end Lines

/-! ### What is exported -/

section Listing

variable {h : Htab} {m : Text → Option Text} {es : List Entry}

theorem sorted_perm (es : List Entry) : (sorted es).Perm es := by
  have hall : (List.range es.length).map
      (fun i => es.getD i { used := 0, key := [], data := [] }) = es := by
    refine List.ext_getElem (by simp) fun i hi hi' => ?_
    rw [List.getElem_map, List.getElem_range, List.getD_eq_getElem _ _ hi']
  have hperm := qsort_perm cmpkey es.length
    fun i => es.getD i { used := 0, key := [], data := [] }
  rw [hall] at hperm
  exact hperm

/-- `es` lists the variables of `m`, each once. -/
structure Lists (m : Text → Option Text) (es : List Entry) : Prop where
  nodup : (es.map Entry.key).Nodup
  lookup : ∀ k v, m k = some v ↔ ∃ e ∈ es, e.key = k ∧ e.data = v

theorem Lists.perm {es' : List Entry} (hl : Lists m es) (hperm : es'.Perm es) : Lists m es' := by
  refine ⟨(hperm.map Entry.key).nodup_iff.mpr hl.nodup, fun k v => ?_⟩
  rw [hl.lookup]
  exact exists_congr fun e => and_congr_left' hperm.mem_iff.symm

theorem Lists.ncard (hl : Lists m es) : {k | m k ≠ none}.ncard = es.length := by
  have hkeys : {k | m k ≠ none} = ((es.map Entry.key).toFinset : Set Text) := by
    ext k
    rw [Finset.mem_coe, List.mem_toFinset, List.mem_map]
    constructor
    · intro hk
      obtain ⟨v, hv⟩ := Option.ne_none_iff_exists'.mp hk
      obtain ⟨e, he, hkey, -⟩ := (hl.lookup k v).mp hv
      exact ⟨e, he, hkey⟩
    · rintro ⟨e, he, rfl⟩
      show m e.key ≠ none
      rw [(hl.lookup e.key e.data).mpr ⟨e, he, rfl, rfl⟩]
      exact Option.some_ne_none _
  rw [hkeys, Set.ncard_coe_finset, List.toFinset_card_of_nodup hl.nodup, List.length_map]

theorem Good.used_pos_iff (hg : Good h) {i : ℕ} (hi : i ∈ slots h.size) :
    0 < (h.table i).used ↔ h.slot i = .used (h.table i).key (h.table i).data := by
  rcases hg.used i hi with hzero | hmark | hused
  · rw [Htab.slot, Entry.slot, if_pos hzero, hzero]
    simp
  · rw [Htab.slot, Entry.slot, hmark]
    simp
  · have hpos := hg.hval_pos (h.table i).key
    exact iff_of_true (by omega) (hg.slot_used hused)

theorem Good.mem_list (hg : Good h) {e : Entry} :
    e ∈ h.list [] ↔ ∃ i ∈ slots h.size, h.table i = e ∧ h.slot i = .used e.key e.data := by
  rw [Htab.list, List.mem_filter, List.mem_map]
  constructor
  · rintro ⟨⟨i, hi, rfl⟩, hused⟩
    have hmem : i ∈ slots h.size := by
      rw [List.mem_range'_1] at hi
      rw [slots, Finset.mem_Icc]
      omega
    exact ⟨i, hmem, rfl, (hg.used_pos_iff hmem).mp (by simpa using hused)⟩
  · rintro ⟨i, hi, rfl, hslot⟩
    refine ⟨⟨i, ?_, rfl⟩, by simpa using (hg.used_pos_iff hi).mpr hslot⟩
    rw [slots, Finset.mem_Icc] at hi
    rw [List.mem_range'_1]
    omega

/-- **The list** that is exported has every variable once. -/
theorem Good.lists (hg : Good h) : Lists h.lookup (h.list []) := by
  constructor
  · rw [Htab.list, List.filter_map, List.map_map]
    refine List.Nodup.map_on ?_ ((List.nodup_range' 1).filter _)
    intro i hi j hj hkey
    obtain ⟨hi, hused⟩ := List.mem_filter.mp hi
    obtain ⟨hj, hused'⟩ := List.mem_filter.mp hj
    have hmem : ∀ {n}, n ∈ List.range' 1 h.size → n ∈ slots h.size := by
      intro n hn
      rw [List.mem_range'_1] at hn
      rw [slots, Finset.mem_Icc]
      omega
    have hti := (hg.used_pos_iff (hmem hi)).mp (by simpa using hused)
    have htj := (hg.used_pos_iff (hmem hj)).mp (by simpa using hused')
    rw [← show (h.table i).key = (h.table j).key from hkey] at htj
    exact hg.sound.unique (hmem hi) (hmem hj) hti htj
  · intro k v
    rw [hg.lookup_eq_some]
    constructor
    · rintro ⟨i, hi, hslot⟩
      have hpos : 0 < (h.table i).used := by
        by_contra hneg
        rcases hg.used i hi with hzero | hmark | hused
        · rw [Htab.slot, Entry.slot, if_pos hzero] at hslot
          cases hslot
        · rw [Htab.slot, Entry.slot, hmark] at hslot
          cases hslot
        · have := hg.hval_pos (h.table i).key
          omega
      have hentry := (hg.used_pos_iff hi).mp hpos
      rw [hslot] at hentry
      cases hentry
      exact ⟨h.table i, hg.mem_list.mpr ⟨i, hi, rfl, hslot⟩, rfl, rfl⟩
    · rintro ⟨e, he, rfl, rfl⟩
      obtain ⟨i, hi, -, hslot⟩ := hg.mem_list.mp he
      exact ⟨i, hi, hslot⟩

end Listing

/-! ### What is imported -/

/-- No entry has been deleted. -/
def NoMarks (h : Htab) : Prop := ∀ i ∈ slots h.size, (h.table i).used ≠ -1

section Importing

variable {h : Htab} {sep : UInt8} {key : Text}

theorem NoMarks.not_clobbers (hm : NoMarks h) (hg : Good h) : ¬ h.Clobbers key := by
  rintro ⟨-, hfull, hall, -⟩
  refine hfull ?_
  have hevery : (slots h.size).filter (fun i => (h.slot i).key.isSome) = slots h.size := by
    refine Finset.filter_true_of_mem fun i hi => ?_
    have hpos : 0 < (h.table i).used := by
      rcases hg.used i hi with hzero | hmark | hused
      · exact absurd hzero (hall i hi)
      · exact absurd hmark (hm i hi)
      · have := hg.hval_pos (h.table i).key
        omega
    rw [(hg.used_pos_iff hi).mp hpos]
    rfl
  rw [hg.filled, load, hevery, slots, Nat.card_Icc]
  omega

theorem NoMarks.set (hm : NoMarks h) (i : ℕ) {e : Entry} (he : e.used ≠ -1) (filled : ℕ) :
    NoMarks { h.set i e with filled := filled } := by
  intro j hj
  show (Function.update h.table i e j).used ≠ -1
  by_cases hji : j = i
  · rw [hji, Function.update_self]
    exact he
  · rw [Function.update_of_ne hji]
    exact hm j hj

theorem NoMarks.enter {data : Text} {r : Found} (hm : NoMarks h) (hg : Good h)
    (hr : hsearchR h key (.enter data) = some r) : NoMarks r.htab := by
  rcases hlookup : h.lookup key with _ | d
  · obtain ⟨i, hlocate, -⟩ := hg.locate_missing hlookup
    by_cases hfull : h.filled = h.size
    · rw [hsearchR, hlocate] at hr
      have hsame : r = ⟨h, 0, none⟩ := Option.some.inj (hr.symm.trans (congrArg some (if_pos hfull)))
      rw [hsame]
      exact hm
    · rw [hsearchR_new hlocate hfull] at hr
      rw [← Option.some.inj hr]
      refine hm.set _ ?_ _
      show (hval h.size key : ℤ) ≠ -1
      omega
  · obtain ⟨i, hi, hused⟩ := hg.lookup_eq_some.mp hlookup
    obtain ⟨hlocate, -, -⟩ := hg.locate_found hi hused
    rw [hsearchR, hlocate] at hr
    rw [← Option.some.inj hr]
    exact hm.set i (e := { h.table i with data := data }) (hm i hi) h.filled

theorem noMarks_hcreateR (nel : ℕ) : NoMarks (hcreateR nel) :=
  fun _ _ => by simp [hcreateR]

/-- A line is entered, if there is room for it. -/
theorem Good.line_enter (hg : Good h) (hm : NoMarks h) {e : Entry} {done : List Entry}
    (hl : Lists h.lookup done) (hnew : e.key ∉ done.map Entry.key) (hroom : done.length < h.size) :
    ∃ h', h.line (.enter e.key e.data) = some (h', true) ∧ Good h' ∧ NoMarks h' ∧
      h'.size = h.size ∧ Lists h'.lookup (done ++ [e]) := by
  obtain ⟨r, henter, hgood, hsize, hresult⟩ := hg.enter_spec e.key e.data (hm.not_clobbers hg)
  have hspace : ¬ (h.lookup e.key = none ∧ h.filled = h.size) := by
    rintro ⟨-, hfull⟩
    have hcount := hg.full_iff.mp hfull
    rw [hl.ncard] at hcount
    omega
  rw [if_neg hspace] at hresult
  obtain ⟨hlookup, hretval⟩ := hresult
  refine ⟨r.htab, ?_, hgood, hm.enter hg henter, hsize, ?_, fun k v => ?_⟩
  · have hsome : r.retval.isSome = true := by
      rw [← Option.isSome_map (f := Entry.data), hretval]
      rfl
    rw [Htab.line, henter, ← hsome]
    rfl
  · rw [List.map_append, List.nodup_append]
    refine ⟨hl.nodup, List.nodup_singleton _, fun a ha b hb hab => ?_⟩
    rw [List.map_singleton, List.mem_singleton] at hb
    exact hnew (hb ▸ hab ▸ ha)
  · rw [hlookup]
    by_cases hk : k = e.key
    · rw [hk, Function.update_self]
      constructor
      · intro hv
        exact ⟨e, List.mem_append_right _ (List.mem_singleton_self e), rfl, Option.some.inj hv⟩
      · rintro ⟨e', he', hkey, rfl⟩
        rcases List.mem_append.mp he' with hdone | hlast
        · exact absurd (List.mem_map.mpr ⟨e', hdone, hkey⟩) hnew
        · rw [List.mem_singleton.mp hlast]
    · rw [Function.update_of_ne hk, hl.lookup]
      constructor
      · rintro ⟨e', he', hkey, hdata⟩
        exact ⟨e', List.mem_append_left _ he', hkey, hdata⟩
      · rintro ⟨e', he', hkey, hdata⟩
        rcases List.mem_append.mp he' with hdone | hlast
        · exact ⟨e', hdone, hkey, hdata⟩
        · rw [List.mem_singleton.mp hlast] at hkey
          exact absurd hkey.symm hk

/-- The loop, on lines that were written. -/
theorem importLoop_lines (hsep : sep ≠ backslash ∧ sep ≠ 0x3d) {es : List Entry} (hne : es ≠ [])
    (hplain : ∀ e ∈ es, Name sep e.key ∧ Value e.data) (tail : Text) (beyond rounds : ℕ)
    (hbeyond : beyond ≤ tail.length) (hrounds : es.length ≤ rounds) (done : List Entry)
    (hg : Good h) (hm : NoMarks h) (hl : Lists h.lookup done)
    (hnodup : ((done ++ es).map Entry.key).Nodup) (hroom : (done ++ es).length ≤ h.size) :
    ∃ h', importLoop sep beyond rounds (es.flatMap (Entry.line sep) ++ 0 :: tail) h =
        some (h', true) ∧ Good h' ∧ h'.size = h.size ∧ Lists h'.lookup (done ++ es) := by
  induction es generalizing done h rounds with
  | nil => exact absurd rfl hne
  | cons e es ih =>
    obtain ⟨⟨hname, hvalue⟩, hrest⟩ := List.forall_mem_cons.mp hplain
    obtain ⟨rounds, rfl⟩ : ∃ n, rounds = n + 1 := by
      rw [List.length_cons] at hrounds
      exact ⟨rounds - 1, by omega⟩
    have hnew : e.key ∉ done.map Entry.key := by
      intro hmem
      rw [List.map_append, List.nodup_append] at hnodup
      exact hnodup.2.2 _ hmem e.key (List.mem_cons_self ..) rfl
    obtain ⟨h', hline, hg', hm', hsize, hl'⟩ := hg.line_enter hm hl hnew (by
      rw [List.length_append, List.length_cons] at hroom
      omega)
    have hassoc : done ++ e :: es = done ++ [e] ++ es := by simp
    rw [importLoop, List.flatMap_cons, List.append_assoc, parseLine_line hsep hname hvalue]
    dsimp only
    rw [hline]
    dsimp only
    cases es with
    | nil =>
      rw [if_neg fun h => h.2 rfl]
      exact ⟨h', rfl, hg', hsize, hl'⟩
    | cons e' es =>
      have hlength : beyond < ((e' :: es).flatMap (Entry.line sep) ++ 0 :: tail).length := by
        rw [List.length_append, List.length_cons]
        omega
      have hhead : ((e' :: es).flatMap (Entry.line sep) ++ 0 :: tail).head? ≠ some 0 := by
        obtain ⟨⟨hname', -⟩, -⟩ := List.forall_mem_cons.mp hrest
        rw [List.flatMap_cons, Entry.line]
        rcases hkey : e'.key with _ | ⟨c, key⟩
        · intro h
          cases h
        · intro h
          have hc : c = 0 := Option.some.inj h
          exact (hname'.plain c (by rw [hkey]; exact List.mem_cons_self ..)).2.1 hc
      rw [if_pos ⟨hlength, hhead⟩]
      rw [hassoc] at hnodup hroom ⊢
      rw [← hsize] at hroom ⊢
      refine ih (List.cons_ne_nil _ _) hrest rounds ?_ _ hg' hm' hl' hnodup hroom
      rw [List.length_cons] at hrounds
      omega

end Importing

/-! ### The round trip -/

section RoundTrip

variable {h : Htab} {sep : UInt8}

theorem line_length_pos (sep : UInt8) (e : Entry) : 0 < (e.line sep).length := by
  rw [Entry.line, List.length_append, List.length_cons]
  omega

theorem length_le_text (sep : UInt8) (es : List Entry) :
    es.length ≤ (es.flatMap (Entry.line sep)).length := by
  induction es with
  | nil => exact Nat.le_refl 0
  | cons e es ih =>
    have hpos := line_length_pos sep e
    rw [List.flatMap_cons, List.length_append, List.length_cons]
    omega

/-- An empty text deletes a variable without a name, which is not there. -/
theorem importLoop_nil (hg : Good h) (hl : Lists h.lookup []) (sep : UInt8) (tail : Text)
    (beyond rounds : ℕ) (hrounds : 0 < rounds) (hzero : beyond < tail.length → tail.head? = some 0) :
    ∃ h', importLoop sep beyond rounds (0 :: tail) h = some (h', true) ∧ Good h' ∧
      h'.size = h.size ∧ h'.lookup = h.lookup := by
  obtain ⟨rounds, rfl⟩ : ∃ n, rounds = n + 1 := ⟨rounds - 1, by omega⟩
  obtain ⟨h', ret, hdelete, hg', hsize, hlookup, -⟩ := hg.delete_spec []
  have hnone : h.lookup [] = none := by
    rw [Option.eq_none_iff_forall_ne_some]
    intro v hv
    obtain ⟨e, he, -⟩ := (hl.lookup [] v).mp hv
    cases he
  -- the terminating zero is taken for a name without a value
  have hparse : parseLine sep (0 :: tail) = some (.delete [], tail) := by
    have hstop : isName sep 0 = false := decide_eq_false fun h => h.2.1 rfl
    rw [parseLine, List.dropWhile_cons_of_neg (by decide)]
    dsimp only
    rw [if_neg (by decide), parsePair, List.dropWhile_cons_of_neg (by simp [hstop]),
      List.takeWhile_cons_of_neg (by simp [hstop])]
    rfl
  refine ⟨h', ?_, hg', hsize, ?_⟩
  · rw [importLoop, hparse]
    dsimp only
    rw [Htab.line, hdelete]
    show (if _ then _ else _) = _
    rw [if_neg fun hmore => hmore.2 (hzero hmore.1)]
  · rw [hlookup, ← hnone, Function.update_eq_self]

/-- **Importing lines that were written**, into a new table with room for them. -/
theorem himportR_lines (hsep : sep ≠ backslash ∧ sep ≠ 0x3d) {es : List Entry}
    (hplain : ∀ e ∈ es, Name sep e.key ∧ Value e.data) (hnodup : (es.map Entry.key).Nodup)
    (env : Text) (n : ℕ) (henv : env = es.flatMap (Entry.line sep) ++ 0 :: List.replicate n 0)
    (hroom : es.length ≤ (hcreateR (nent env.length)).size) (beyond : Text) :
    ∃ h', himportR none env beyond sep false = some (h', true) ∧ Good h' ∧
      h'.size = (hcreateR (nent env.length)).size ∧ Lists h'.lookup es := by
  have hnent : 4 ≤ nent env.length := by
    rw [nent]
    omega
  have hnew := good_hcreateR hnent
  have hempty : Lists (hcreateR (nent env.length)).lookup [] := by
    refine ⟨List.nodup_nil, fun k v => ?_⟩
    rw [hnew.lookup_eq_some]
    constructor
    · rintro ⟨i, -, hslot⟩
      cases hslot
    · rintro ⟨e, he, -⟩
      cases he
  have htext : env ++ beyond =
      es.flatMap (Entry.line sep) ++ 0 :: (List.replicate n 0 ++ beyond) := by
    rw [henv, List.append_assoc, List.cons_append]
  have himport : himportR none env beyond sep false = importLoop sep beyond.length
      (env ++ beyond).length (env ++ beyond) (hcreateR (nent env.length)) := rfl
  rw [himport, htext]
  by_cases hne : es = []
  · subst hne
    have hzero : beyond.length < (List.replicate n 0 ++ beyond).length →
        (List.replicate n 0 ++ beyond).head? = some 0 := by
      intro hlt
      rcases n with _ | n
      · exact absurd hlt (by simp)
      · rfl
    obtain ⟨h', hloop, hg', hsize, hlookup⟩ := importLoop_nil hnew hempty sep _ beyond.length
      (0 :: (List.replicate n 0 ++ beyond)).length (by simp) hzero
    exact ⟨h', hloop, hg', hsize, hlookup ▸ hempty⟩
  · have hlength := length_le_text sep es
    obtain ⟨h', hloop, hg', hsize, hl'⟩ := importLoop_lines hsep hne hplain
      (List.replicate n 0 ++ beyond) beyond.length (es.flatMap (Entry.line sep) ++
        0 :: (List.replicate n 0 ++ beyond)).length (by simp) (by rw [List.length_append]; omega)
      [] hnew (noMarks_hcreateR _) hempty hnodup hroom
    exact ⟨h', hloop, hg', hsize, hl'⟩

/-- What `hexport_r` returns: a size with the room that was counted, and from the start of the
buffer on the lines, their end, and zeros. -/
theorem hexportR_some {size : ℕ} {argv : List Text} {buffer : Exported}
    (hexport : hexportR h sep size argv = some buffer) :
    buffer.size = (if size = 0 then totlen sep (h.list argv) + 1 else size) ∧
      totlen sep (h.list argv) + 1 ≤ buffer.size ∧
      buffer.written = (sorted (h.list argv)).flatMap (Entry.line sep) ++ 0 :: List.replicate
        (buffer.size - ((sorted (h.list argv)).flatMap (Entry.line sep)).length - 1) 0 := by
  rw [hexportR] at hexport
  dsimp only at hexport
  split at hexport
  · cases hexport
  · rename_i hbig
    cases hexport
    refine ⟨rfl, ?_, rfl⟩
    dsimp only
    split
    · exact Nat.le_refl _
    · omega

/-- **Importing what is exported**, into a table with room for it, when the text fits the
buffer. -/
theorem Good.import_export (hg : Good h) (hsep : sep ≠ backslash ∧ sep ≠ 0x3d)
    (hplain : ∀ k v, h.lookup k = some v → Name sep k ∧ Value v) {size : ℕ} {buffer : Exported}
    (hexport : hexportR h sep size [] = some buffer) (hfits : buffer.written.length = buffer.size)
    (hroom : h.filled ≤ (hcreateR (nent buffer.size)).size) (beyond : Text) :
    ∃ h', himportR none buffer.written beyond sep false = some (h', true) ∧ Good h' ∧
      h'.size = (hcreateR (nent buffer.size)).size ∧ h'.lookup = h.lookup := by
  have hlists : Lists h.lookup (sorted (h.list [])) := hg.lists.perm (sorted_perm _)
  have hcount : (sorted (h.list [])).length = h.filled := by
    rw [← hlists.ncard, hg.filled, hg.sound.load_eq hg.covers]
    rfl
  have hplain' : ∀ e ∈ sorted (h.list []), Name sep e.key ∧ Value e.data := fun e he =>
    hplain e.key e.data ((hlists.lookup _ _).mpr ⟨e, he, rfl, rfl⟩)
  obtain ⟨-, -, hwritten⟩ := hexportR_some hexport
  rw [← hfits] at hroom ⊢
  obtain ⟨h', himport, hg', hsize, hl'⟩ := himportR_lines hsep hplain' hlists.nodup _ _ hwritten
    (hcount.trans_le hroom) beyond
  refine ⟨h', himport, hg', hsize, ?_⟩
  funext k
  ext v
  rw [hl'.lookup, hlists.lookup]

/-- Every line of the export is in one place only: what is written has the length of its
lines. -/
theorem text_length (sep : UInt8) (es : List Entry) :
    (es.flatMap (Entry.line sep)).length + 2 * es.length =
      (es.map fun e => e.key.length + 2 + (escape sep e.data).length + 2).sum := by
  induction es with
  | nil => rfl
  | cons e es ih =>
    rw [List.flatMap_cons, List.length_append, List.length_cons, List.map_cons, List.sum_cons, ← ih,
      Entry.line, List.length_append, List.length_cons, List.length_append, List.length_singleton]
    omega

/-- How many characters of the values are backslashes. -/
def backslashes (es : List Entry) : ℕ := (es.map fun e => e.data.count backslash).sum

theorem escape_length_zero {data : Text} (hdata : 0 ∉ data) :
    (escape 0 data).length = data.length + data.count backslash := by
  induction data with
  | nil => rfl
  | cons c data ih =>
    obtain ⟨hc, hrest⟩ := not_or.mp fun h => hdata (List.mem_cons.mpr h)
    rw [escape_cons, List.length_append, ih hrest, List.count_cons, List.length_cons]
    by_cases hback : c = backslash
    · rw [if_pos (Or.inr hback), if_pos (beq_iff_eq.mpr hback), List.length_cons,
        List.length_singleton]
      omega
    · rw [if_neg fun h => h.elim (Ne.symm hc) hback, if_neg fun h => hback (beq_iff_eq.mp h),
        List.length_singleton]
      omega

/-- With a separator other than NUL the lines take the room that was counted, but for two
characters each; with NUL the backslashes come on top of it. -/
theorem text_length_totlen (sep : UInt8) {es : List Entry} (hdata : ∀ e ∈ es, 0 ∉ e.data) :
    (es.flatMap (Entry.line sep)).length + 2 * es.length =
      totlen sep es + if sep = 0 then backslashes es else 0 := by
  rw [text_length, totlen, backslashes]
  by_cases hsep : sep = 0
  · rw [if_pos hsep, hsep, ← List.sum_map_add]
    refine congrArg List.sum (List.map_congr_left fun e he => ?_)
    rw [escape_length_zero (hdata e he), if_pos rfl]
    omega
  · rw [if_neg hsep, Nat.add_zero]
    refine congrArg List.sum (List.map_congr_left fun e _ => ?_)
    rw [if_neg hsep]

/-- **When the export stays in its buffer**: always, unless the separator is NUL and there
are more backslashes than the room that is left over. -/
theorem hexportR_fits_iff (h : Htab) (sep : UInt8) (size : ℕ) (argv : List Text)
    (hdata : ∀ e ∈ h.list argv, 0 ∉ e.data) (buffer : Exported)
    (hexport : hexportR h sep size argv = some buffer) :
    buffer.written.length ≤ buffer.size ↔ sep = 0 →
      totlen 0 (h.list argv) + 1 + backslashes (h.list argv) ≤
        buffer.size + 2 * (h.list argv).length := by
  have hperm := sorted_perm (h.list argv)
  have hlength : ((sorted (h.list argv)).flatMap (Entry.line sep)).length =
      ((h.list argv).flatMap (Entry.line sep)).length :=
    (hperm.flatMap_right (Entry.line sep)).length_eq
  have htotal := text_length_totlen sep hdata
  obtain ⟨-, hroom, hwritten⟩ := hexportR_some hexport
  rw [hwritten, List.length_append, List.length_cons, List.length_replicate, hlength]
  by_cases hsep : sep = 0
  · subst hsep
    rw [if_pos rfl] at htotal
    constructor
    · intro hfits _
      omega
    · intro hfits
      have := hfits rfl
      omega
  · rw [if_neg hsep] at htotal
    refine iff_of_true ?_ fun h => absurd h hsep
    omega

/-- A table with one variable, a path with eight backslashes. -/
def slashes : Htab :=
  ((hsearchR (hcreateR 4) (CString.ascii "p") (.enter (List.replicate 8 backslash))).map
    Found.htab).getD (hcreateR 4)

/-- Twenty characters are written into a buffer of fourteen that `hexport_r` has allocated. -/
theorem hexportR_fits_iff_slashes :
    ∃ buffer, hexportR slashes 0 0 [] = some buffer ∧ buffer.size = 14 ∧
      ¬ buffer.written.length ≤ buffer.size := by
  obtain ⟨buffer, hexport⟩ := Option.isSome_iff_exists.mp
    (show (hexportR slashes 0 0 []).isSome = true by decide +kernel)
  have hsize : buffer.size = 14 := by
    have hsome : (hexportR slashes 0 0 []).map Exported.size = some 14 := by decide +kernel
    rw [hexport] at hsome
    exact Option.some.inj hsome
  refine ⟨buffer, hexport, hsize, fun hfits => ?_⟩
  have hroom := (hexportR_fits_iff slashes 0 0 [] (by decide +kernel) buffer hexport).mp hfits rfl
  rw [hsize] at hroom
  exact absurd hroom (by decide +kernel)

end RoundTrip

end Hashtable
