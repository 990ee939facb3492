/-
The order of the exported environment (`hexport_r`, `cmpkey`).

`strcmp` returns the difference of two characters as a signed character, so that names are only
in an order as long as their characters differ by less than 128: with others the comparison is
not even transitive.  `qsort` never looks at more than its elements, and sorts those it is given.

* `strcmp_le_iff` — the comparison of ASCII names is that of their bytes;
* `export_inOrder` — **what is exported depends on the variables alone**: their lines, each
  once, in the order of the names.
-/
import Mathlib.Data.List.Lex
import OpenMptcpRouter.Hashtable.Text

namespace Hashtable

/-- A name in ASCII. -/
def Ascii (key : Text) : Prop := ∀ c ∈ key, 0 < c.toNat ∧ c.toNat < 128

/-- The bytes of a name as numbers; lists of these are in lexicographic order. -/
abbrev codes (key : Text) : List ℕ := key.map UInt8.toNat

/-- Half of the bytes differ by what a signed character holds. -/
theorem toInt_sub {c d : UInt8} (hc : c.toNat < 128) (hd : d.toNat < 128) :
    (c - d).toInt8.toInt = (c.toNat : ℤ) - d.toNat := by
  have hsub : (c - d).toBitVec.toNat = (2 ^ 8 - d.toNat + c.toNat) % 2 ^ 8 := UInt8.toNat_sub c d
  show (c - d).toBitVec.toInt = _
  rw [BitVec.toInt_eq_toNat_cond, hsub]
  split <;> omega

/-- **The comparison of names** that are ASCII. -/
theorem strcmp_le_iff : ∀ {x y : Text}, Ascii x → Ascii y →
    (strcmp x y ≤ 0 ↔ ¬ codes y < codes x)
  | [], [], _, _ => by simp [strcmp]
  | [], d :: ds, _, hy => by
    have hd := hy d (List.mem_cons_self ..)
    have hval : strcmp [] (d :: ds) = (0 : ℤ) - d.toNat := toInt_sub (c := 0) (by decide) hd.2
    rw [hval]
    refine iff_of_true (by omega) ?_
    exact List.not_lt_nil _
  | c :: cs, [], hx, _ => by
    have hc := hx c (List.mem_cons_self ..)
    have hval : strcmp (c :: cs) [] = (c.toNat : ℤ) - (0 : UInt8).toNat := by
      rw [← toInt_sub hc.2 (by decide), UInt8.sub_zero]
      rfl
    rw [hval]
    refine iff_of_false ?_ (not_not.mpr ?_)
    · show ¬ (c.toNat : ℤ) - 0 ≤ 0
      omega
    · exact List.nil_lt_cons ..
  | c :: cs, d :: ds, hx, hy => by
    have hc := hx c (List.mem_cons_self ..)
    have hd := hy d (List.mem_cons_self ..)
    have ih : strcmp cs ds ≤ 0 ↔ ¬ codes ds < codes cs :=
      strcmp_le_iff (fun c h => hx c (List.mem_cons_of_mem _ h))
        fun c h => hy c (List.mem_cons_of_mem _ h)
    rw [strcmp]
    show _ ↔ ¬ (d.toNat :: codes ds) < c.toNat :: codes cs
    rw [List.cons_lt_cons_iff]
    by_cases heq : c = d
    · rw [if_neg (not_not.mpr heq), ih, heq]
      simp
    · have hne : c.toNat ≠ d.toNat := fun h => heq (UInt8.toNat_inj.mp h)
      rw [if_pos heq, toInt_sub hc.2 hd.2]
      constructor
      · rintro hle (hlt | ⟨h, -⟩)
        · omega
        · exact hne h.symm
      · intro hnot
        rw [not_or] at hnot
        omega

/-! ### What is exported -/

section Listing

variable {h : Htab} {es : List Entry}

/-- What is sorted is in the order of the names. -/
theorem sorted_pairwise (hascii : ∀ e ∈ es, Ascii e.key) :
    (sorted es).Pairwise fun e e' => ¬ codes e'.key < codes e.key := by
  -- the comparison is an order on entries with ASCII names only, so that these are sorted
  let β := {e : Entry // Ascii e.key}
  let dflt : β := ⟨{ used := 0, key := [], data := [] }, fun c hc => by cases hc⟩
  obtain ⟨a, ha⟩ : ∃ a : ℕ → β, (fun i => es.getD i dflt.1) = Subtype.val ∘ a := by
    refine ⟨fun i => if hi : i < es.length then ⟨es[i], hascii _ (List.getElem_mem hi)⟩ else dflt,
      funext fun i => ?_⟩
    by_cases hi : i < es.length
    · rw [List.getD_eq_getElem _ _ hi]
      simp [hi]
    · rw [List.getD_eq_default _ _ (Nat.le_of_not_lt hi)]
      simp [hi]
  have hbefore : ∀ x y : β, Before (fun x y : β => cmpkey x.1 y.1) x y ↔
      ¬ codes y.1.key < codes x.1.key := fun x y => strcmp_le_iff x.2 y.2
  have hsorted : SortedTo (fun x y : β => cmpkey x.1 y.1) es.length
      (qsort (fun x y : β => cmpkey x.1 y.1) es.length a) := by
    refine qsort_sorted (fun x y => ?_) (fun x y z hxy hyz => ?_) es.length a
    · rw [hbefore, hbefore, not_lt, not_lt]
      exact le_total _ _
    · rw [hbefore, not_lt] at hxy hyz ⊢
      exact le_trans hxy hyz
  rw [sorted, show (fun i => es.getD i { used := 0, key := [], data := [] }) = Subtype.val ∘ a
    from ha, qsort_comp, List.pairwise_map]
  refine List.pairwise_lt_range.imp_of_mem fun {p q} hp hq hpq => ?_
  exact (hbefore _ _).mp (hsorted p q hpq (List.mem_range.mp hq))

/-- **The export is in order.**  In every run in which no step overwrites another entry, the
text that is exported is made of the lines of the variables that were asked for, each once, in
the order of their names, as long as these are ASCII. -/
theorem export_inOrder (nel : ℕ) (hnel : 4 ≤ nel) (ops : List Op)
    (hkeeps : Run.AllSteps Htab.step (fun h op => ¬ h.Loses op) (hcreateR nel) ops)
    (sep : UInt8) (size : ℕ) (argv : List Text) (buffer : Exported)
    (hascii : ∀ k v, (Run.exec Htab.step (hcreateR nel) ops).lookup k = some v → Ascii k)
    (hexport : hexportR (Run.exec Htab.step (hcreateR nel) ops) sep size argv = some buffer) :
    ∃ (es : List Entry) (n : ℕ),
      buffer.written = es.flatMap (Entry.line sep) ++ 0 :: List.replicate n 0 ∧
      (es.Pairwise fun e e' => codes e.key < codes e'.key) ∧
      ∀ k v, (∃ e ∈ es, e.key = k ∧ e.data = v) ↔
        (Run.exec Htab.step (hcreateR nel) ops).lookup k = some v ∧ (argv = [] ∨ k ∈ argv) := by
  have hg : Good (Run.exec Htab.step (hcreateR nel) ops) := ((good_hcreateR hnel).run hkeeps).1
  generalize Run.exec Htab.step (hcreateR nel) ops = h at hg hascii hexport ⊢
  have hlists := hg.lists
  -- the names that were asked for are filtered out of all of them
  have hfilter : h.list argv = (h.list []).filter fun e => argv = [] ∨ e.key ∈ argv := by
    rw [Htab.list, Htab.list, List.filter_filter]
    refine List.filter_congr fun e _ => ?_
    simp [and_comm]
  have hmem : ∀ e, e ∈ sorted (h.list argv) ↔ e ∈ h.list [] ∧ (argv = [] ∨ e.key ∈ argv) := by
    intro e
    rw [(sorted_perm _).mem_iff, hfilter, List.mem_filter, decide_eq_true_iff]
  have hnodup : ((sorted (h.list argv)).map Entry.key).Nodup := by
    rw [((sorted_perm _).map Entry.key).nodup_iff, hfilter]
    exact hlists.nodup.sublist (List.filter_sublist.map Entry.key)
  have hkey : ∀ e ∈ h.list argv, Ascii e.key := by
    intro e he
    rw [hfilter, List.mem_filter] at he
    exact hascii e.key e.data ((hlists.lookup _ _).mpr ⟨e, he.1, rfl, rfl⟩)
  obtain ⟨-, -, hwritten⟩ := hexportR_some hexport
  refine ⟨sorted (h.list argv), _, hwritten, ?_, fun k v => ?_⟩
  · have hdistinct := List.pairwise_map.mp hnodup
    refine ((sorted_pairwise hkey).and hdistinct).imp fun {e e'} hboth => ?_
    refine lt_of_le_of_ne (not_lt.mp hboth.1) fun heq => hboth.2 ?_
    exact List.map_injective_iff.mpr (fun _ _ => UInt8.toNat_inj.mp) heq
  · rw [hlists.lookup k v]
    constructor
    · rintro ⟨e, he, rfl, rfl⟩
      obtain ⟨hlisted, hasked⟩ := (hmem e).mp he
      exact ⟨⟨e, hlisted, rfl, rfl⟩, hasked⟩
    · rintro ⟨⟨e, he, rfl, rfl⟩, hasked⟩
      exact ⟨e, (hmem e).mpr ⟨he, hasked⟩, rfl, rfl⟩

end Listing

theorem ascii_worn (k v : Text)
    (hlookup : (Run.exec Htab.step (hcreateR 4) worn).lookup k = some v) : Ascii k := by
  have hg : Good (Run.exec Htab.step (hcreateR 4) worn) :=
    ((good_hcreateR (by decide)).run (show Run.AllSteps Htab.step (fun h op => ¬ h.Loses op)
      (hcreateR 4) worn by decide)).1
  obtain ⟨e, he, rfl, -⟩ := (hg.lists.lookup k v).mp hlookup
  have hall : ∀ e ∈ (Run.exec Htab.step (hcreateR 4) worn).list [],
      ∀ c ∈ e.key, 0 < c.toNat ∧ c.toNat < 128 := by
    decide +kernel
  exact hall e he

/-- Of the variables `a` to `d`, entered in another order, two are exported. -/
theorem export_inOrder_worn :
    ∃ buffer, hexportR (Run.exec Htab.step (hcreateR 4) worn) 0x0a 0
        [CString.ascii "d", CString.ascii "a"] = some buffer ∧
      ∃ (es : List Entry) (n : ℕ),
        buffer.written = es.flatMap (Entry.line 0x0a) ++ 0 :: List.replicate n 0 ∧
          es.Pairwise fun e e' => codes e.key < codes e'.key := by
  obtain ⟨buffer, hexport⟩ := Option.isSome_iff_exists.mp
    (show (hexportR (Run.exec Htab.step (hcreateR 4) worn) 0x0a 0
      [CString.ascii "d", CString.ascii "a"]).isSome = true by decide +kernel)
  obtain ⟨es, n, hwritten, horder, -⟩ := export_inOrder 4 (by decide) worn (by decide) 0x0a 0
    [CString.ascii "d", CString.ascii "a"] buffer ascii_worn hexport
  exact ⟨buffer, hexport, es, n, hwritten, horder⟩

end Hashtable
