/-
A heap in a list, as the documentation of `heapq` describes it.

The first entry of a heap is a least one, and the operations keep the entries and the heap.  How the
entries behind the first one are arranged is up to the heap.
-/
import Evosport.Lib.StableSort

namespace Lib

/-- A correct heap, its entries compared by `rank`. -/
structure Heapq {ε κ : Type*} [LinearOrder κ] (rank : ε → κ) where
  IsHeap : List ε → Prop
  heapify : List ε → List ε
  heappush : List ε → ε → List ε
  /-- What is left of a heap without its first entry. -/
  heappop : List ε → List ε
  /-- Remove the first entry and put another one in. -/
  heapreplace : List ε → ε → List ε
  first_le {e : ε} {h : List ε} : IsHeap (e :: h) → ∀ e' ∈ h, rank e ≤ rank e'
  isHeap_heapify (l : List ε) : IsHeap (heapify l)
  perm_heapify (l : List ε) : (heapify l).Perm l
  isHeap_heappush {h : List ε} (e : ε) : IsHeap h → IsHeap (heappush h e)
  perm_heappush {h : List ε} (e : ε) : IsHeap h → (heappush h e).Perm (e :: h)
  isHeap_heappop {e : ε} {h : List ε} : IsHeap (e :: h) → IsHeap (heappop (e :: h))
  perm_heappop {e : ε} {h : List ε} : IsHeap (e :: h) → (heappop (e :: h)).Perm h
  isHeap_heapreplace {e : ε} {h : List ε} (e' : ε) :
    IsHeap (e :: h) → IsHeap (heapreplace (e :: h) e')
  perm_heapreplace {e : ε} {h : List ε} (e' : ε) :
    IsHeap (e :: h) → (heapreplace (e :: h) e').Perm (e' :: h)

/-- A heap that keeps its entries sorted: the simplest instance, by which statements about all heaps
are shown to be about something. -/
def sortedHeapq {ε κ : Type*} [LinearOrder κ] (rank : ε → κ) : Heapq rank where
  IsHeap := List.Pairwise (KeyLe rank)
  heapify := sortByKey rank
  heappush h e := h.orderedInsert (KeyLe rank) e
  heappop := List.tail
  heapreplace h e := h.tail.orderedInsert (KeyLe rank) e
  first_le h := (List.pairwise_cons.1 h).1
  isHeap_heapify := pairwise_sortByKey
  perm_heapify := perm_sortByKey rank
  isHeap_heappush e h := h.orderedInsert e _
  perm_heappush e _ := List.perm_orderedInsert _ e _
  isHeap_heappop h := (List.pairwise_cons.1 h).2
  perm_heappop _ := .refl _
  isHeap_heapreplace e' h := (List.pairwise_cons.1 h).2.orderedInsert e' _
  perm_heapreplace e' _ := List.perm_orderedInsert _ e' _

end Lib
