/-
Dynamic memory.

A heap holds the live blocks by address, each with its contents; a pointer is an address
or `none`, which is `NULL`.  An `Allocator` places a new block anywhere but at a live one,
so an address may come back once its block has been freed.

`load` and `free` fail on a pointer to no live block, `load` also on `NULL`.  `Owned h ps`
says that the live blocks are those the pointers `ps` point to, each by one of them:

* `Owned.malloc`, `Owned.free` — a new block has its owner, and freeing through the owner
  succeeds and leaves the blocks of the others;
* `Owned.load` — what an owner points to can be read.
-/
import Mathlib.Data.List.AList
import Mathlib.Data.List.MinMax

/-- The live blocks with their contents. -/
abbrev Heap (κ α : Type) := AList fun _ : κ => α

namespace Heap

variable {κ α : Type}

/-- Where new blocks go, given the live ones. -/
structure Allocator (κ : Type) where
  place : List κ → κ
  fresh : ∀ live, place live ∉ live

/-- What a program must not do with a pointer. -/
inductive Fault
  /-- to follow `NULL` -/
  | null
  /-- to follow or free a pointer to no live block -/
  | dead
  deriving DecidableEq, Repr

variable [DecidableEq κ]

/-- A new block with contents `x`, or `NULL` if there is no room. -/
def malloc (A : Allocator κ) (h : Heap κ α) (room : Bool) (x : α) : Option κ × Heap κ α :=
  if room then (some (A.place h.keys), h.insert (A.place h.keys) x) else (none, h)

/-- The contents of the block at `p`. -/
def load (h : Heap κ α) : Option κ → Except Fault α
  | none => .error .null
  | some p =>
    match h.lookup p with
    | none => .error .dead
    | some x => .ok x

/-- The heap without the block at `p`; freeing `NULL` does nothing. -/
def free (h : Heap κ α) : Option κ → Except Fault (Heap κ α)
  | none => .ok h
  | some p => if p ∈ h then .ok (h.erase p) else .error .dead

/-- The live blocks are those that `ps` point to. -/
def Owned (h : Heap κ α) (ps : List κ) : Prop := h.keys.Perm ps

section Owners

variable {h : Heap κ α} {ps : List κ} {p : κ}

omit [DecidableEq κ] in
theorem owned_empty : Owned (∅ : Heap κ α) [] := List.Perm.nil

omit [DecidableEq κ] in
theorem Owned.mem (ho : Owned h ps) (hp : p ∈ ps) : p ∈ h := AList.mem_keys.mpr (ho.mem_iff.mpr hp)

/-- **The new block has its owner**, and it holds what was put there. -/
theorem Owned.malloc (ho : Owned h ps) (A : Allocator κ) (x : α) :
    ∃ p h', malloc A h true x = (some p, h') ∧ h'.lookup p = some x ∧ Owned h' (p :: ps) := by
  refine ⟨_, _, rfl, AList.lookup_insert h, ?_⟩
  rw [Owned, AList.keys_insert, List.erase_of_not_mem (A.fresh _)]
  exact List.Perm.cons _ ho

/-- **Freeing through the owner** succeeds, and the other owners keep their blocks. -/
theorem Owned.free (ho : Owned h (p :: ps)) : ∃ h', free h (some p) = .ok h' ∧ Owned h' ps := by
  refine ⟨h.erase p, if_pos (ho.mem List.mem_cons_self), ?_⟩
  rw [Owned, AList.keys_erase]
  have herase := List.Perm.erase p ho
  rwa [List.erase_cons_head] at herase

/-- **What an owner points to can be read.** -/
theorem Owned.load (ho : Owned h ps) (hp : p ∈ ps) :
    ∃ x, h.lookup p = some x ∧ load h (some p) = .ok x := by
  obtain ⟨x, hx⟩ := Option.isSome_iff_exists.mp (AList.lookup_isSome.mpr (ho.mem hp))
  refine ⟨x, hx, ?_⟩
  rw [Heap.load, hx]

end Owners

/-- Each block right above the highest live one. -/
instance : Inhabited (Allocator ℕ) where
  default :=
    { place := fun live => live.foldr max 0 + 1
      fresh := fun _ hmem =>
        Nat.not_succ_le_self _ (List.le_max_of_le' 0 hmem (Nat.le_refl _)) }

end Heap
