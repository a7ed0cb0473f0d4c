import Mathlib

/-! Memory behind pointers. A cell that has been freed may be handed out again, so a pointer that is
kept too long is dangling or belongs to another cell. Whoever follows a dangling pointer crashes. -/
namespace Logjam.Library

inductive Crash
  | danglingPointer
  | failedAssertion
  deriving DecidableEq

/-- Any way to choose an address that is not in use. -/
structure Allocator where
  choose : List ℕ → ℕ
  fresh : ∀ used,choose used ∉ used

/-- An allocator that never reuses an address while a higher one is in use. -/
def Allocator.above : Allocator where
  choose used := used.sum+1
  fresh used h := absurd (List.single_le_sum (fun _ _ => Nat.zero_le _) _ h) (by omega)

/-- The cells in use and what they hold. -/
abbrev Memory (α : Type*) := AList (fun _ : ℕ => α)

def deref {α : Type*} : Option α → Except Crash α
  | some a => .ok a
  | none => .error .danglingPointer

namespace Memory

variable {α : Type*}

def read (m : Memory α) (p : ℕ) : Except Crash α := deref (m.lookup p)

def malloc (allocator : Allocator) (m : Memory α) (a : α) : ℕ × Memory α :=
  (allocator.choose m.keys,m.insert (allocator.choose m.keys) a)

/-- Freeing twice is as bad as reading what has been freed. -/
def free (m : Memory α) (p : ℕ) : Except Crash (Memory α) :=
  if p ∈ m then .ok (m.erase p) else .error .danglingPointer

lemma read_of_lookup {m : Memory α} {p : ℕ} {a : α} (h : m.lookup p = some a) : m.read p = .ok a := by
  rw [read,h]
  rfl

lemma free_of_lookup {m : Memory α} {p : ℕ} {a : α} (h : m.lookup p = some a) : m.free p = .ok (m.erase p) :=
  if_pos (AList.lookup_isSome.mp (by rw [h]; rfl))

lemma lookup_malloc_self (allocator : Allocator) (m : Memory α) (a : α) :
    (m.malloc allocator a).2.lookup (m.malloc allocator a).1 = some a := AList.lookup_insert m

lemma ne_choose (allocator : Allocator) {m : Memory α} {p : ℕ} {b : α} (h : m.lookup p = some b) :
    p ≠ allocator.choose m.keys := by
  rintro rfl
  exact allocator.fresh m.keys (AList.lookup_isSome.mp (by rw [h]; rfl))

/-- What is in use stays as it is. -/
lemma lookup_malloc {allocator : Allocator} {m : Memory α} {p : ℕ} {b : α} (h : m.lookup p = some b) (a : α) :
    (m.malloc allocator a).2.lookup p = some b :=
  (AList.lookup_insert_ne (ne_choose allocator h)).trans h

lemma lookup_erase {m : Memory α} {p q : ℕ} {a : α} (h : m.lookup p = some a) (hne : p ≠ q) :
    (m.erase q).lookup p = some a := (AList.lookup_erase_ne hne).trans h

end Memory
end Logjam.Library
