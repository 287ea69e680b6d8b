import Mathlib.Data.List.Sort

/-! Heap functions over vectors, as a standard library promises them: which item comes first among
equal ones, and where the others are, is left to it. -/
namespace Collections

universe u

variable {α : Type u}

/-- Functions that keep an item at the front that is not above any other. -/
structure HeapFunctions (le : α → α → Prop) where
  IsHeap : List α → Prop
  isHeap_nil : IsHeap []
  front_le : ∀ x xs, IsHeap (x :: xs) → ∀ y ∈ x :: xs, le x y
  make : List α → List α
  make_perm : ∀ xs, (make xs).Perm xs
  isHeap_make : ∀ xs, IsHeap (make xs)
  push : List α → α → List α
  push_perm : ∀ xs x, IsHeap xs → (push xs x).Perm (x :: xs)
  isHeap_push : ∀ xs x, IsHeap xs → IsHeap (push xs x)
  pop : List α → List α
  pop_perm : ∀ x xs, IsHeap (x :: xs) → (pop (x :: xs)).Perm xs
  isHeap_pop : ∀ x xs, IsHeap (x :: xs) → IsHeap (pop (x :: xs))

namespace HeapFunctions

def sorted (le : α → α → Prop) [DecidableRel le] [IsTrans α le] [Std.Total le] (hRefl : ∀ x, le x x) :
    HeapFunctions le where
  IsHeap := List.Pairwise le
  isHeap_nil := .nil
  front_le x xs h y hMem := by
    rcases List.mem_cons.mp hMem with rfl | hRest
    · exact hRefl y
    · exact List.rel_of_pairwise_cons h hRest
  make := List.insertionSort le
  make_perm := List.perm_insertionSort le
  isHeap_make := List.pairwise_insertionSort le
  push xs x := List.orderedInsert le x xs
  push_perm xs x _ := List.perm_orderedInsert le x xs
  isHeap_push xs x h := h.orderedInsert x xs
  pop := List.tail
  pop_perm _ _ _ := .refl _
  isHeap_pop _ _ h := h.of_cons

variable {le : α → α → Prop} (heaps : HeapFunctions le)

theorem push_ne_nil {xs : List α} {x : α} (h : heaps.IsHeap xs) : heaps.push xs x ≠ [] := by
  intro hNil
  have hPerm := heaps.push_perm xs x h
  rw [hNil] at hPerm
  exact List.cons_ne_nil _ _ hPerm.nil_eq.symm

end HeapFunctions
end Collections
