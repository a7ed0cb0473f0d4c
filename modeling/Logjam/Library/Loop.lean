import Mathlib

/-! While loops that need not end. A round either goes on with a new state or leaves the loop with
a result; the bound on the number of rounds only tells how far the loop has been followed. -/
namespace Logjam.Library

variable {σ ρ : Type*} {round : σ → σ ⊕ ρ} {s : σ}

def whileLoop (round : σ → σ ⊕ ρ) : ℕ → σ → Option ρ
  | 0,_ => none
  | n+1,s => match round s with
    | .inl t => whileLoop round n t
    | .inr r => some r

/-- A loop that has ended does not care about the bound. -/
theorem whileLoop_mono {n m : ℕ} (h : n ≤ m) {r : ρ} (hn : whileLoop round n s = some r) : whileLoop round m s = some r := by
  induction n generalizing s m with
  | zero => simp [whileLoop] at hn
  | succ n ih =>
    obtain ⟨m,rfl⟩ := Nat.exists_eq_add_of_le' h
    cases hr : round s with
    | inl t =>
      simp only [whileLoop,hr] at hn
      simp only [whileLoop,hr]
      exact ih (Nat.le_add_left n m) hn
    | inr q =>
      simp only [whileLoop,hr] at hn
      simp only [whileLoop,hr]
      exact hn

/-- What the rounds keep and the exit turns into the postcondition holds of any result. -/
theorem whileLoop_invariant {P : σ → Prop} {Q : ρ → Prop} (hkeep : ∀ s t, P s → round s = .inl t → P t)
    (hexit : ∀ s r, P s → round s = .inr r → Q r) (hs : P s) {n : ℕ} {r : ρ}
    (h : whileLoop round n s = some r) : Q r := by
  induction n generalizing s with
  | zero => simp [whileLoop] at h
  | succ n ih =>
    cases hr : round s with
    | inl t =>
      simp only [whileLoop,hr] at h
      exact ih (hkeep s t hs hr) h
    | inr q =>
      simp only [whileLoop,hr,Option.some.injEq] at h
      exact h ▸ hexit s q hs hr

/-- A loop with a variant that decreases in every round but the last one ends. -/
theorem exists_whileLoop {P : σ → Prop} (μ : σ → ℕ)
    (hround : ∀ s t, P s → round s = .inl t → P t ∧ μ t < μ s) (hs : P s) :
    ∃ n r, whileLoop round n s = some r := by
  induction h : μ s using Nat.strong_induction_on generalizing s with
  | _ m ih =>
    cases hr : round s with
    | inl t =>
      obtain ⟨ht,hlt⟩ := hround s t hs hr
      obtain ⟨n,r,hn⟩ := ih (μ t) (h ▸ hlt) ht rfl
      exact ⟨n+1,r,by simp only [whileLoop,hr,hn]⟩
    | inr r => exact ⟨1,r,by simp only [whileLoop,hr]⟩

/-- A loop that stays within states in which it goes on never ends. -/
theorem whileLoop_eq_none {P : σ → Prop} (hround : ∀ s, P s → ∃ t, round s = .inl t ∧ P t) (hs : P s)
    (n : ℕ) : whileLoop round n s = none := by
  induction n generalizing s with
  | zero => rfl
  | succ n ih =>
    obtain ⟨t,hr,ht⟩ := hround s hs
    simp only [whileLoop,hr,ih ht]

end Logjam.Library
