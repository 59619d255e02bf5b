import Mathlib.Data.List.Nodup
import Mathlib.Data.List.Perm.Basic
import Mathlib.Logic.Function.Basic

/-! Allocated cells and who owns them. Reading or freeing a cell that does not exist is
undefined.
-/

namespace OwnedHeap

open scoped List

/-- The cells by their addresses, and the first address that was never given out. -/
structure Heap (Cell : Type*) where
  next : Nat
  cells : Nat → Option Cell

variable {Cell : Type*}

def Heap.empty : Heap Cell := ⟨0, fun _ => none⟩

def Heap.alloc (heap : Heap Cell) (cell : Cell) : Heap Cell × Nat :=
  (⟨heap.next + 1, Function.update heap.cells heap.next (some cell)⟩, heap.next)

def Heap.read (heap : Heap Cell) (pointer : Nat) : Option Cell := heap.cells pointer

def Heap.free (heap : Heap Cell) (pointer : Nat) : Option (Heap Cell) :=
  (heap.cells pointer).map
    (fun _ => { heap with cells := Function.update heap.cells pointer none })

/-- The cells that exist are the owned ones, and no two owners own the same one. -/
structure Owned (heap : Heap Cell) (owned : List (Nat × Cell)) : Prop where
  apart : (owned.map Prod.fst).Nodup
  exact : ∀ pointer cell, heap.cells pointer = some cell ↔ (pointer, cell) ∈ owned
  given : ∀ entry ∈ owned, entry.1 < heap.next

variable {heap next : Heap Cell} {owned other : List (Nat × Cell)} {pointer : Nat} {cell : Cell}

theorem owned_empty : Owned (Heap.empty : Heap Cell) [] where
  apart := List.nodup_nil
  exact pointer cell := by simp [Heap.empty]
  given := List.forall_mem_nil _

theorem Owned.perm (holds : Owned heap owned) (same : owned ~ other) : Owned heap other where
  apart := (same.map Prod.fst).nodup_iff.mp holds.apart
  exact pointer cell := (holds.exact pointer cell).trans same.mem_iff
  given entry member := holds.given entry (same.mem_iff.mpr member)

theorem Owned.read (holds : Owned heap owned) (member : (pointer, cell) ∈ owned)
    : heap.read pointer = some cell :=
  (holds.exact pointer cell).mpr member

/-- A new cell is at an address that nobody owns. -/
theorem Owned.alloc (holds : Owned heap owned) (cell : Cell)
    : Owned (heap.alloc cell).1 (((heap.alloc cell).2, cell) :: owned) where
  apart := by
    refine List.nodup_cons.mpr ⟨fun old => ?_, holds.apart⟩
    obtain ⟨entry, member, same⟩ := List.mem_map.mp old
    exact absurd (holds.given entry member) (by rw [same]; exact Nat.lt_irrefl _)
  exact pointer found := by
    by_cases same : pointer = heap.next
    · subst same
      have unowned : (heap.next, found) ∉ owned :=
        fun member => absurd (holds.given _ member) (Nat.lt_irrefl _)
      simp [Heap.alloc, unowned, eq_comm]
    · simp [Heap.alloc, same, holds.exact]
  given entry member := by
    rcases List.mem_cons.mp member with rfl | old
    · exact Nat.lt_succ_self _
    · exact Nat.lt_succ_of_lt (holds.given entry old)

/-- An owned cell can be freed, and the others stay. -/
theorem Owned.free (holds : Owned heap ((pointer, cell) :: owned))
    : ∃ next, heap.free pointer = some next ∧ Owned next owned := by
  have found : heap.cells pointer = some cell := holds.read List.mem_cons_self
  have apart := List.nodup_cons.mp holds.apart
  refine ⟨_, by rw [Heap.free, found]; rfl, apart.2, fun address value => ?_, ?_⟩
  · by_cases same : address = pointer
    · subst same
      have unowned : (address, value) ∉ owned :=
        fun member => apart.1 (List.mem_map.mpr ⟨_, member, rfl⟩)
      simp [unowned]
    · have others := holds.exact address value
      simp only [List.mem_cons, Prod.mk.injEq, same, false_and, false_or] at others
      simp [same, others]
  · exact fun entry member => holds.given entry (List.mem_cons_of_mem _ member)

/-- What is owned through one key of many, and the rest. -/
theorem flatMap_update_perm {Key Item : Type*} [DecidableEq Key] {keys : List Key} {key : Key}
    (distinct : keys.Nodup) (member : key ∈ keys) (items : Key → List Item)
    : ∃ rest, ∀ value, keys.flatMap (Function.update items key value) ~ value ++ rest := by
  obtain ⟨before, after, rfl⟩ := List.append_of_mem member
  obtain ⟨notBefore, notAfter⟩ : key ∉ before ∧ key ∉ after := by
    have moved := (List.perm_middle.nodup_iff.mp distinct)
    simpa using (List.nodup_cons.mp moved).1
  have unchanged (part : List Key) (absent : key ∉ part) (value : List Item)
      : part.flatMap (Function.update items key value) = part.flatMap items :=
    List.flatMap_congr (fun other inside =>
      Function.update_of_ne (fun same : other = key => absent (same ▸ inside)) _ _)
  refine ⟨before.flatMap items ++ after.flatMap items, fun value => ?_⟩
  rw [List.flatMap_append, List.flatMap_cons, unchanged before notBefore,
    unchanged after notAfter, Function.update_self]
  exact List.perm_append_comm_assoc _ _ _

end OwnedHeap
