import Mathlib

/-! Objects with reference counts. An object is freed when the last reference is released; a
reference that somebody has forgotten without releasing it is lost. -/
namespace Logjam.Library

structure Heap where
  refCount : ℕ → ℤ
  freed : ℕ → Bool
  next : ℕ

namespace Heap

def empty : Heap := ⟨fun _ => 0,fun _ => false,0⟩

/-- The new object, which has the number next, has one reference. -/
def alloc (h : Heap) : Heap := ⟨Function.update h.refCount h.next 1,h.freed,h.next+1⟩

def reference (h : Heap) (o : ℕ) : Heap := { h with refCount := Function.update h.refCount o (h.refCount o+1) }

/-- The count before the release decides. -/
def release (h : Heap) (o : ℕ) : Heap where
  refCount := Function.update h.refCount o (h.refCount o-1)
  freed := if 1 < h.refCount o then h.freed else Function.update h.freed o true
  next := h.next

def releaseAll (h : Heap) (objects : List ℕ) : Heap := objects.foldl release h

/-- The counts are those of the references that are held or lost. -/
structure Accounts (h : Heap) (held lost : Multiset ℕ) : Prop where
  refCount : ∀ o, h.refCount o = held.count o+lost.count o
  lt_next : ∀ o ∈ held+lost, o < h.next
  freed : ∀ o < h.next, h.freed o = true ↔ h.refCount o = 0
  unused : ∀ o, h.next ≤ o → h.freed o = false

variable {h : Heap} {held lost : Multiset ℕ} {o : ℕ}

namespace Accounts

lemma empty : Accounts Heap.empty 0 0 where
  refCount _ := by simp [Heap.empty]
  lt_next _ ho := absurd ho (Multiset.notMem_zero _)
  freed _ ho := absurd ho (Nat.not_lt_zero _)
  unused _ _ := rfl

lemma alloc (hh : Accounts h held lost) : Accounts h.alloc (h.next ::ₘ held) lost := by
  have hnew : h.next ∉ held+lost := fun hmem => Nat.lt_irrefl _ (hh.lt_next _ hmem)
  rw [Multiset.mem_add,not_or] at hnew
  refine ⟨fun o => ?_,fun o ho => ?_,fun o ho => ?_,fun o ho => ?_⟩
  · by_cases heq : o = h.next
    · simp [Heap.alloc,heq,Multiset.count_eq_zero_of_notMem hnew.1,Multiset.count_eq_zero_of_notMem hnew.2]
    · simp [Heap.alloc,heq,hh.refCount o]
  · rw [Multiset.cons_add,Multiset.mem_cons] at ho
    rcases ho with rfl | ho
    · exact Nat.lt_succ_self _
    · exact Nat.lt_succ_of_lt (hh.lt_next o ho)
  · by_cases heq : o = h.next
    · simp [Heap.alloc,heq,hh.unused h.next le_rfl]
    · have hlt : o < h.next := by
        simp only [Heap.alloc] at ho
        omega
      simp [Heap.alloc,heq,hh.freed o hlt]
  · exact hh.unused o (Nat.le_of_succ_le ho)

/-- A reference is taken from one that is held. -/
lemma reference (hh : Accounts h held lost) (ho : o ∈ held) : Accounts (h.reference o) (o ::ₘ held) lost := by
  have hcount : 0 < held.count o := Multiset.count_pos.mpr ho
  refine ⟨fun p => ?_,fun p hp => ?_,fun p hp => ?_,hh.unused⟩
  · by_cases heq : p = o
    · simp only [Heap.reference,heq,Function.update_self,hh.refCount o,Multiset.count_cons_self]
      push_cast
      ring
    · simp [Heap.reference,heq,hh.refCount p]
  · rw [Multiset.cons_add,Multiset.mem_cons] at hp
    rcases hp with rfl | hp
    · exact hh.lt_next p (Multiset.mem_add.mpr (.inl ho))
    · exact hh.lt_next p hp
  · by_cases heq : p = o
    · have hpos : h.refCount o ≠ 0 := by rw [hh.refCount o]; omega
      have hnot : ¬h.freed o = true := fun hfreed => hpos ((hh.freed o (heq ▸ hp)).mp hfreed)
      simp only [Heap.reference,heq,Function.update_self]
      refine iff_of_false hnot ?_
      rw [hh.refCount o]
      omega
    · simpa [Heap.reference,heq] using hh.freed p hp

lemma release (hh : Accounts h (o ::ₘ held) lost) : Accounts (h.release o) held lost := by
  have hcount := hh.refCount o
  rw [Multiset.count_cons_self] at hcount
  push_cast at hcount
  have hlt : o < h.next := hh.lt_next o (by simp)
  refine ⟨fun p => ?_,fun p hp => hh.lt_next p (by rw [Multiset.cons_add]; exact Multiset.mem_cons_of_mem hp),
    fun p hp => ?_,fun p hp => ?_⟩
  · by_cases heq : p = o
    · simp only [Heap.release,heq,Function.update_self]
      omega
    · simpa [Heap.release,heq] using hh.refCount p
  · by_cases heq : p = o
    · rw [heq]
      by_cases hlast : 1 < h.refCount o
      · have hnot : ¬h.freed o = true := fun hfreed => by
          have := (hh.freed o hlt).mp hfreed
          omega
        simp only [Heap.release,hlast,if_true,Function.update_self]
        exact iff_of_false hnot (by omega)
      · simp only [Heap.release,hlast,if_false,Function.update_self]
        exact iff_of_true trivial (by omega)
    · by_cases hlast : 1 < h.refCount o
      · simpa [Heap.release,heq,hlast] using hh.freed p hp
      · simpa [Heap.release,heq,hlast] using hh.freed p hp
  · have hne : p ≠ o := fun heq => absurd hlt (not_lt.mpr (heq ▸ hp))
    by_cases hlast : 1 < h.refCount o
    · simpa [Heap.release,hlast] using hh.unused p hp
    · simpa [Heap.release,hne,hlast] using hh.unused p hp

/-- A holder that goes away without a release. -/
lemma lose (hh : Accounts h (o ::ₘ held) lost) : Accounts h held (o ::ₘ lost) := by
  refine ⟨fun p => ?_,fun p hp => hh.lt_next p ?_,hh.freed,hh.unused⟩
  · rw [hh.refCount p,Multiset.count_cons,Multiset.count_cons]
    push_cast
    ring
  · rwa [Multiset.cons_add,← Multiset.add_cons]

lemma releaseAll {objects : List ℕ} (hh : Accounts h (↑objects+held) lost) :
    Accounts (h.releaseAll objects) held lost := by
  induction objects generalizing h with
  | nil => simpa [Heap.releaseAll] using hh
  | cons o objects ih =>
    rw [← Multiset.cons_coe,Multiset.cons_add] at hh
    exact ih hh.release

/-- The counts are exact, and objects are freed with their last holder, just if no reference is lost. -/
theorem exact_iff (hh : Accounts h held lost) :
    (∀ o < h.next, h.refCount o = held.count o ∧ (h.freed o = true ↔ held.count o = 0)) ↔ lost = 0 := by
  constructor
  · intro hexact
    refine Multiset.eq_zero_of_forall_notMem fun o ho => ?_
    have hpos : 0 < lost.count o := Multiset.count_pos.mpr ho
    have hcount := (hexact o (hh.lt_next o (Multiset.mem_add.mpr (.inr ho)))).1
    rw [hh.refCount o] at hcount
    omega
  · rintro rfl o ho
    have hcount := hh.refCount o
    rw [Multiset.count_zero,Nat.cast_zero,add_zero] at hcount
    exact ⟨hcount,by rw [hh.freed o ho,hcount,Nat.cast_eq_zero]⟩

end Accounts
end Heap
end Logjam.Library
