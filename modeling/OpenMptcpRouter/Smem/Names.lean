/-
The names in the partition table.

The boot loader takes the 16 bytes of a name up to the first NUL.  The packer strips NULs from
both ends, keeps what is between them, and wants UTF-8; one name that is not makes it refuse
the whole table.  `NameRead` is a name that both take the same way.

* `packed_eq` — where all names are, the packer finds an entry under its name;
* `nameRead_of_packed` — and only there: **if it finds every entry of the table under the
  entry's name, all names are** such.  An entry with something behind its NUL is stored under
  another name, and no other entry can take its place.
-/
import OpenMptcpRouter.Smem.Table

namespace Smem

/-- A name the packer takes as the boot loader does: in UTF-8, and with NULs only behind its
NUL. -/
structure NameRead (p : SmemPtn) : Prop where
  utf8 : (ByteArray.mk p.cname.toArray).IsValidUTF8
  rest : ∀ c ∈ p.nameBytes.drop p.cname.length, c = 0

/-- What the packer has read under the name of entry `p`. -/
def packed (b : Board) (table : List SmemPtn) (p : SmemPtn) : Option PartInfo := do
  let parts ← packParts b table
  let name ← decode p.cname
  parts name

/-! ### Decoding and stripping -/

section Bytes

variable {xs ys : List UInt8} {t : Text}

theorem decode_isSome_iff : (decode xs).isSome ↔ (ByteArray.mk xs.toArray).IsValidUTF8 := by
  rw [decode, Option.isSome_map, String.fromUTF8?]
  split <;> simp [*]

/-- Different bytes are different texts. -/
theorem decode_inj (hx : decode xs = some t) (hy : decode ys = some t) : xs = ys := by
  have hbytes : ∀ {zs : List UInt8}, decode zs = some t →
      (String.ofList t).toByteArray = ByteArray.mk zs.toArray := by
    intro zs hz
    obtain ⟨s, hs, rfl⟩ := Option.map_eq_some_iff.mp hz
    rw [String.fromUTF8?] at hs
    split at hs
    · obtain rfl := Option.some.inj hs
      rw [String.ofList_toList]
      rfl
    · cases hs
  have heq := (hbytes hx).symm.trans (hbytes hy)
  exact congrArg Array.toList (ByteArray.mk.inj heq)

/-- Zeros are stripped from both ends. -/
theorem exists_strip (xs : List UInt8) :
    ∃ m n, xs = List.replicate m 0 ++ strip xs ++ List.replicate n 0 := by
  have hzeros : ∀ {ys : List UInt8}, (∀ c ∈ ys, c = 0) → List.replicate ys.length 0 = ys :=
    fun h => (List.eq_replicate_iff.mpr ⟨rfl, h⟩).symm
  have hfront : xs.takeWhile (· = 0) ++ xs.dropWhile (· = 0) = xs := List.takeWhile_append_dropWhile
  have hback : strip xs ++ (xs.dropWhile (· = 0)).rtakeWhile (· = 0) = xs.dropWhile (· = 0) :=
    List.rdropWhile_append_rtakeWhile
  refine ⟨(xs.takeWhile (· = 0)).length, ((xs.dropWhile (· = 0)).rtakeWhile (· = 0)).length, ?_⟩
  have hfirst : ∀ c ∈ xs.takeWhile (· = 0), c = 0 := fun c hc => by
    simpa using List.mem_takeWhile_imp hc
  have hlast : ∀ c ∈ (xs.dropWhile (· = 0)).rtakeWhile (· = 0), c = 0 := fun c hc => by
    simpa using List.mem_rtakeWhile_imp hc
  rw [hzeros hfirst, List.append_assoc, hzeros hlast, hback, hfront]

/-- A text without zeros is all that is left of it between zeros. -/
theorem strip_append (hxs : 0 ∉ xs) (n : ℕ) : strip (xs ++ List.replicate n 0) = xs := by
  have hne : ∀ c ∈ xs, ¬ (decide (c = 0)) = true := fun c hc h =>
    hxs (of_decide_eq_true h ▸ hc)
  have hback : (xs ++ List.replicate n 0).rdropWhile (· = 0) = xs := by
    induction n with
    | zero =>
      rw [List.replicate_zero, List.append_nil]
      exact List.rdropWhile_eq_self_iff.mpr fun hl => hne _ (List.getLast_mem hl)
    | succ n ih =>
      rw [List.replicate_succ', ← List.append_assoc, List.rdropWhile_concat_pos _ _ _ (by simp), ih]
  rw [strip]
  rcases xs with _ | ⟨c, cs⟩
  · rw [List.nil_append, List.dropWhile_eq_nil_iff.mpr (by simp), List.rdropWhile_nil]
  · rw [List.cons_append, List.dropWhile_cons, if_neg (hne c List.mem_cons_self)]
    exact hback

end Bytes

section Name

variable {p : SmemPtn}

theorem nameBytes_eq (p : SmemPtn) :
    p.nameBytes = p.cname ++ p.nameBytes.drop p.cname.length := by
  conv_lhs => rw [← List.take_append_drop p.cname.length p.nameBytes]
  rw [SmemPtn.cname, ← CString.cstr_eq_take]

theorem zero_notMem_cname (p : SmemPtn) : 0 ∉ p.cname := by
  intro h
  obtain ⟨i, hi⟩ := List.mem_iff_getElem?.mp h
  exact CString.getElem?_cstr_ne_zero _ _ hi

/-- A C string in front of zeros, in an array that holds one. -/
theorem cname_eq {xs : List UInt8} {n : ℕ} (hxs : 0 ∉ xs)
    (hp : p.nameBytes = xs ++ List.replicate n 0) : p.cname = xs := by
  rw [SmemPtn.cname, CString.cstr, hp, List.takeWhile_append_of_pos fun c hc => by
    simpa using fun h : c = 0 => hxs (h ▸ hc)]
  simp

/-- The packer strips a name to the C string where there are only zeros behind it. -/
theorem strip_eq_cname_iff :
    strip p.nameBytes = p.cname ↔ ∀ c ∈ p.nameBytes.drop p.cname.length, c = 0 := by
  constructor
  · intro h
    obtain ⟨m, n, heq⟩ := exists_strip p.nameBytes
    rw [h] at heq
    have hmem : ∀ c ∈ p.nameBytes.drop p.cname.length, c ∈ p.nameBytes := fun c hc =>
      List.mem_of_mem_drop hc
    by_cases hnil : p.cname = []
    · rw [hnil, List.append_nil, List.replicate_append_replicate] at heq
      exact fun c hc => (List.mem_replicate.mp (heq ▸ hmem c hc)).2
    -- with a zero in front there would be no C string
    · rcases m with _ | m
      · have hsplit := nameBytes_eq p
        rw [List.replicate_zero, List.nil_append] at heq
        have hdrop := List.append_cancel_left (hsplit.symm.trans heq)
        exact fun c hc => (List.mem_replicate.mp (hdrop ▸ hc)).2
      · refine absurd ?_ hnil
        rw [SmemPtn.cname, CString.cstr, heq, List.replicate_succ]
        simp
  · intro h
    have hrest : p.nameBytes.drop p.cname.length =
        List.replicate (p.nameBytes.drop p.cname.length).length 0 :=
      List.eq_replicate_iff.mpr ⟨rfl, h⟩
    rw [nameBytes_eq p, hrest]
    exact strip_append (zero_notMem_cname p) _

end Name

/-! ### The packer's table -/

section Read

variable {b : Board} {table : List SmemPtn} {p : SmemPtn}
  {blocksize chipsize nandBlocksize nandChipsize : ℤ} {parts : Text → Option PartInfo} {name : Text}
  {info : PartInfo}

/-- What is read under a name comes from an entry that has it. -/
theorem exists_of_readParts
    (h : readParts blocksize chipsize nandBlocksize nandChipsize table = some parts)
    (hinfo : parts name = some info) :
    ∃ q ∈ table, decode (strip q.nameBytes) = some name := by
  suffices hfold : ∀ parts₀ : Text → Option PartInfo,
      table.foldlM (fun parts mentry => do
        let partName ← decode (strip mentry.nameBytes)
        return Function.update parts partName
          (some (readEntry blocksize chipsize nandBlocksize nandChipsize mentry))) parts₀
        = some parts → parts₀ name = some info ∨
          ∃ q ∈ table, decode (strip q.nameBytes) = some name by
    exact (hfold _ h).resolve_left (by simp)
  clear h
  induction table with
  | nil =>
    intro parts₀ h
    obtain rfl := Option.some.inj h
    exact Or.inl hinfo
  | cons q table ih =>
    intro parts₀ h
    rw [List.foldlM_cons] at h
    obtain ⟨parts₁, h₁, h⟩ := Option.bind_eq_some_iff.mp h
    obtain ⟨partName, hname, h₁⟩ := Option.bind_eq_some_iff.mp h₁
    obtain rfl := Option.some.inj h₁
    rcases ih _ h with hin | ⟨q', hmem, hq'⟩
    · by_cases heq : name = partName
      · exact Or.inr ⟨q, List.mem_cons_self, heq ▸ hname⟩
      · rw [Function.update_of_ne heq] at hin
        exact Or.inl hin
    · exact Or.inr ⟨q', List.mem_cons_of_mem _ hmem, hq'⟩

/-- The name the packer gives an entry whose name it reads. -/
def partName (p : SmemPtn) : Text := (decode p.cname).getD []

theorem NameRead.decode_cname (h : NameRead p) : decode p.cname = some (partName p) := by
  obtain ⟨name, hname⟩ := Option.isSome_iff_exists.mp (decode_isSome_iff.mpr h.utf8)
  rw [partName, hname]
  rfl

theorem NameRead.decode_strip (h : NameRead p) :
    decode (strip p.nameBytes) = some (partName p) := by
  rw [strip_eq_cname_iff.mpr h.rest, h.decode_cname]

theorem foldl_update_of_not_mem {α β κ : Type} [DecidableEq κ] {key : α → κ} {f : α → β} {k : κ}
    (xs : List α) (m : κ → β) (h : k ∉ xs.map key) :
    xs.foldl (fun m x => Function.update m (key x) (f x)) m k = m k := by
  induction xs generalizing m with
  | nil => rfl
  | cons x xs ih =>
    rw [List.map_cons, List.mem_cons, not_or] at h
    rw [List.foldl_cons, ih _ h.2, Function.update_of_ne h.1]

/-- The loop, where all names are read. -/
theorem readParts_eq (hread : ∀ q ∈ table, NameRead q) :
    readParts blocksize chipsize nandBlocksize nandChipsize table =
      some (table.foldl (fun parts q => Function.update parts (partName q)
        (some (readEntry blocksize chipsize nandBlocksize nandChipsize q))) fun _ => none) := by
  rw [readParts]
  generalize (fun _ => none : Text → Option PartInfo) = parts₀
  induction table generalizing parts₀ with
  | nil => rfl
  | cons q table ih =>
    obtain ⟨hq, hread⟩ := List.forall_mem_cons.mp hread
    rw [List.foldlM_cons, hq.decode_strip]
    exact ih hread _

/-- A table with distinct names, split at one of its entries. -/
theorem split_at (hnodup : (table.map SmemPtn.name).Nodup) (hp : p ∈ table) :
    ∃ pre post, table = pre ++ p :: post ∧ p.name ∉ pre.map SmemPtn.name ∧
      p.name ∉ post.map SmemPtn.name := by
  obtain ⟨pre, post, rfl⟩ := List.append_of_mem hp
  refine ⟨pre, post, rfl, ?_, ?_⟩
  · rw [List.map_append, List.nodup_append'] at hnodup
    exact fun h => hnodup.2.2 h List.mem_cons_self
  · rw [List.map_append, List.nodup_append', List.map_cons, List.nodup_cons] at hnodup
    exact hnodup.2.1.1

/-- Where all names are read, the packer has each entry under its name. -/
theorem packed_eq (hnodup : (table.map SmemPtn.name).Nodup) (hread : ∀ q ∈ table, NameRead q)
    (hp : p ∈ table) : packed b table p =
      some (readEntry b.flashBlockSize b.nor.size b.nand.erasesize b.nand.size p) := by
  have hparts : packed b table p = table.foldl (fun parts q => Function.update parts (partName q)
      (some (readEntry b.flashBlockSize b.nor.size b.nand.erasesize b.nand.size q))) (fun _ => none)
        (partName p) := by
    rw [packed, packParts, readParts_eq hread, (hread p hp).decode_cname]
    rfl
  obtain ⟨pre, post, rfl, -, hpost⟩ := split_at hnodup hp
  have hother : partName p ∉ post.map partName := by
    intro hmem
    obtain ⟨q, hq, heq⟩ := List.mem_map.mp hmem
    have hdecode := (hread q (by simp [hq])).decode_cname
    rw [heq] at hdecode
    have hbytes := decode_inj hdecode (hread p hp).decode_cname
    exact hpost (List.mem_map.mpr ⟨q, hq, congrArg (List.map Char.ofUInt8) hbytes⟩)
  rw [hparts, List.foldl_append, List.foldl_cons, foldl_update_of_not_mem post _ hother,
    Function.update_self]

/-- **The names of a table whose entries are all found.** -/
theorem nameRead_of_packed (hnodup : (table.map SmemPtn.name).Nodup)
    (hfound : ∀ p ∈ table, packed b table p ≠ none) : ∀ p ∈ table, NameRead p := by
  have hinj : ∀ p ∈ table, ∀ q ∈ table, p.cname = q.cname → p = q := fun p hp q hq h =>
    List.inj_on_of_nodup_map hnodup hp hq (congrArg (List.map Char.ofUInt8) h)
  -- an entry is found in the place of one that is stripped to its name
  have hstripped : ∀ p ∈ table, (ByteArray.mk p.cname.toArray).IsValidUTF8 ∧
      ∃ q ∈ table, strip q.nameBytes = p.cname := by
    intro p hp
    obtain ⟨info, hinfo⟩ := Option.ne_none_iff_exists'.mp (hfound p hp)
    obtain ⟨parts, hparts, hinfo⟩ := Option.bind_eq_some_iff.mp hinfo
    obtain ⟨name, hname, hinfo⟩ := Option.bind_eq_some_iff.mp hinfo
    obtain ⟨q, hq, hdecode⟩ := exists_of_readParts hparts hinfo
    exact ⟨decode_isSome_iff.mp (by rw [hname]; rfl), q, hq, decode_inj hdecode hname⟩
  have hempty : ∀ p ∈ table, p.cname = [] → strip p.nameBytes = p.cname := by
    intro p hp hnil
    obtain ⟨-, q, hq, heq⟩ := hstripped p hp
    obtain ⟨m, n, hbytes⟩ := exists_strip q.nameBytes
    rw [heq, hnil, List.append_nil, List.replicate_append_replicate, ← List.nil_append (List.replicate _ _)]
      at hbytes
    have hqnil := cname_eq List.not_mem_nil hbytes
    obtain rfl := hinj p hp q hq (hnil.trans hqnil.symm)
    exact heq
  intro p hp
  obtain ⟨hutf8, q, hq, heq⟩ := hstripped p hp
  refine ⟨hutf8, strip_eq_cname_iff.mp ?_⟩
  by_cases hnil : p.cname = []
  · exact hempty p hp hnil
  -- the other entry does not start with a NUL, so that it has the name of `p` as a C string
  have hqne : q.cname ≠ [] := by
    intro hqnil
    exact hnil (heq.symm.trans ((hempty q hq hqnil).trans hqnil))
  obtain ⟨m, n, hbytes⟩ := exists_strip q.nameBytes
  have hm : m = 0 := by
    rcases m with _ | m
    · rfl
    · refine absurd ?_ hqne
      rw [SmemPtn.cname, CString.cstr, hbytes, List.replicate_succ]
      simp
  rw [hm, List.replicate_zero, List.nil_append, heq] at hbytes
  have hname := cname_eq (zero_notMem_cname p) hbytes
  obtain rfl := hinj p hp q hq hname.symm
  exact heq

end Read

end Smem
