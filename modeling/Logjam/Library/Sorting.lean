import Mathlib

/-! Sorting with a comparison. Nothing is said about the algorithm, and equal elements may come in any order. -/
namespace Logjam.Library

/-- A sort and its contract: the result is in order if the comparison is a strict weak order. -/
structure SliceSort where
  sort : {α : Type} → (α → α → Bool) → List α → List α
  perm : ∀ {α : Type} (less : α → α → Bool) (l : List α),(sort less l).Perm l
  sorted : ∀ {α : Type} (less : α → α → Bool) (l : List α),
    (∀ a b c,less b a = false → less c b = false → less c a = false) →
    (∀ a b,less a b = false ∨ less b a = false) → (sort less l).Pairwise fun a b => less b a = false

lemma pairwise_mergeSort_less {α : Type} (less : α → α → Bool) (l : List α)
    (htrans : ∀ a b c,less b a = false → less c b = false → less c a = false)
    (htotal : ∀ a b,less a b = false ∨ less b a = false) :
    (l.mergeSort fun a b => !less b a).Pairwise fun a b => less b a = false := by
  have hsorted : (l.mergeSort fun a b => !less b a).Pairwise fun a b => (!less b a) = true :=
    List.pairwise_mergeSort (by simpa using htrans) (by simpa [or_comm] using htotal) l
  simpa using hsorted

def SliceSort.merge : SliceSort where
  sort less l := l.mergeSort fun a b => !less b a
  perm less l := List.mergeSort_perm l fun a b => !less b a
  sorted := pairwise_mergeSort_less

variable {α : Type} {cmp : α → α → Ordering} [Std.TransCmp cmp]

lemma not_lt_iff_isLE {a b : α} : (cmp b a == .lt) = false ↔ (cmp a b).isLE = true := by
  have hswap : cmp b a = (cmp a b).swap := Std.OrientedCmp.eq_swap
  rw [hswap]
  cases cmp a b <;> decide

lemma SliceSort.pairwise_isLE (go : SliceSort) (l : List α) :
    (go.sort (fun a b => cmp a b == .lt) l).Pairwise fun a b => (cmp a b).isLE = true := by
  have hsorted := go.sorted (fun a b => cmp a b == .lt) l
  simp only [not_lt_iff_isLE] at hsorted
  refine hsorted (fun _ _ _ => Std.TransCmp.isLE_trans) ?_
  intro a b
  have hswap : cmp b a = (cmp a b).swap := Std.OrientedCmp.eq_swap
  rw [hswap]
  cases cmp a b <;> decide

end Logjam.Library
