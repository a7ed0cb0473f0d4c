import Mathlib

/-! Computations that may fail, together with the actions they have performed until then. A
condition on the actions is checked along the computation. -/
namespace Logjam.Library

universe u

structure Traced (ω φ : Type u) (α : Type u) where
  actions : List ω
  result : Except φ α

variable {ω φ α β : Type u}

namespace Traced

def perform (action : ω) (result : α) : Traced ω φ α := ⟨[action],.ok result⟩

/-- A step without actions. -/
def lift (result : Except φ α) : Traced ω φ α := ⟨[],result⟩

/-- An action that does not succeed. -/
def failAt (action : ω) (fault : φ) : Traced ω φ α := ⟨[action],.error fault⟩

instance : Monad (Traced ω φ) where
  pure a := ⟨[],.ok a⟩
  bind x f := match x.result with
    | .ok a => ⟨x.actions ++ (f a).actions,(f a).result⟩
    | .error e => ⟨x.actions,.error e⟩

lemma actions_pure (a : α) : (pure a : Traced ω φ α).actions = [] := rfl

lemma actions_subset_bind (x : Traced ω φ α) (f : α → Traced ω φ β) : x.actions ⊆ (x >>= f).actions := by
  obtain ⟨actions,result⟩ := x
  cases result with
  | ok a => exact List.subset_append_left actions _
  | error e => exact List.Subset.refl actions

lemma actions_bind_of_ok {x : Traced ω φ α} {a : α} (h : x.result = .ok a) (f : α → Traced ω φ β) :
    (x >>= f).actions = x.actions ++ (f a).actions := by
  obtain ⟨actions,result⟩ := x
  obtain rfl : result = .ok a := h
  rfl

/-- All actions of the computation satisfy the condition. -/
def Keeps (P : ω → Prop) (x : Traced ω φ α) : Prop := ∀ action ∈ x.actions, P action

variable {P : ω → Prop}

lemma keeps_pure (a : α) : Keeps P (pure a : Traced ω φ α) := by
  intro action h
  rw [actions_pure] at h
  cases h

lemma keeps_lift (result : Except φ α) : Keeps P (lift result : Traced ω φ α) := by
  intro action h
  cases h

lemma keeps_perform {action : ω} (h : P action) (result : α) :
    Keeps P (perform action result : Traced ω φ α) := by
  intro a ha
  obtain rfl := List.mem_singleton.mp ha
  exact h

theorem Keeps.bind {x : Traced ω φ α} {f : α → Traced ω φ β} (hx : Keeps P x)
    (hf : ∀ a, x.result = .ok a → Keeps P (f a)) : Keeps P (x >>= f) := by
  obtain ⟨actions,result⟩ := x
  cases result with
  | error e => exact hx
  | ok a =>
    intro action h
    rcases List.mem_append.mp h with h | h
    · exact hx action h
    · exact hf a rfl action h

lemma Keeps.ite {c : Prop} [Decidable c] {x y : Traced ω φ α} (hx : c → Keeps P x) (hy : ¬c → Keeps P y) :
    Keeps P (if c then x else y) := by
  split
  · exact hx ‹_›
  · exact hy ‹_›

end Traced
end Logjam.Library
