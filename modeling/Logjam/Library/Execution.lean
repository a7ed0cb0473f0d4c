import Logjam.Library.Run

/-! Endless runs, and what must happen in them sooner or later. -/
namespace Logjam.Library

variable {σ ε ω φ : Type*}

/-- A run without an end: the state before every event, and what the event shows. -/
structure Execution (step : σ → ε → Except φ (σ × List ω)) (allowed : σ → ε → Prop) (initial : σ) where
  state : ℕ → σ
  event : ℕ → ε
  out : ℕ → List ω
  state_zero : state 0 = initial
  ok : ∀ n, allowed (state n) (event n)
  eq : ∀ n, step (state n) (event n) = .ok (state (n+1),out n)

variable {step : σ → ε → Except φ (σ × List ω)} {allowed : σ → ε → Prop} {initial : σ}

/-- Its beginnings are runs. -/
theorem Execution.run (e : Execution step allowed initial) (n : ℕ) :
    Run step allowed initial ((List.range n).map e.event) (e.state n) ((List.range n).flatMap e.out) := by
  induction n with
  | zero =>
    rw [e.state_zero]
    exact .start
  | succ n ih =>
    rw [List.range_succ,List.map_append,List.flatMap_append,List.flatMap_singleton]
    exact ih.step (e.ok n) (e.eq n)

/-- What every step keeps from some time on, when it holds then. -/
theorem stable {P : ℕ → Prop} {first : ℕ} (h : P first) (keep : ∀ n, first ≤ n → P n → P (n+1)) {n : ℕ}
    (hn : first ≤ n) : P n := by
  induction n, hn using Nat.le_induction with
  | base => exact h
  | succ n hn ih => exact keep n hn ih

/-- A rank that does not grow and drops again and again unless the goal is reached: it is reached. -/
theorem exists_of_rank {α : Type*} [Preorder α] [WellFoundedLT α] (rank : ℕ → α) (goal : ℕ → Prop)
    {first : ℕ} (keep : ∀ n, first ≤ n → ¬goal n → goal (n+1) ∨ rank (n+1) ≤ rank n)
    (move : ∀ n, first ≤ n → ∃ m, n ≤ m ∧ (goal m ∨ rank (m+1) < rank m)) :
    ∃ m, first ≤ m ∧ goal m := by
  by_contra hnone
  push Not at hnone
  have hle : ∀ n m, first ≤ n → n ≤ m → rank m ≤ rank n := by
    intro n m hn hm
    refine stable (P := fun m => rank m ≤ rank n) le_rfl ?_ hm
    intro m hm hrank
    have hkeep := keep m (hn.trans hm) (hnone m (hn.trans hm))
    exact (hkeep.resolve_left (hnone (m+1) (by omega))).trans hrank
  -- the rank at any later time is the start of an endless descent
  have hdescent : ∀ r n, first ≤ n → rank n = r → False := by
    intro r
    induction r using WellFoundedLT.induction with
    | ind r ih =>
      intro n hn hr
      obtain ⟨m,hm,hgoal | hlt⟩ := move n hn
      · exact hnone m (hn.trans hm) hgoal
      · have hdrop : rank (m+1) < r := hr ▸ hlt.trans_le (hle n m hn hm)
        exact ih (rank (m+1)) hdrop (m+1) (by omega) rfl
  exact hdescent (rank first) first le_rfl rfl

end Logjam.Library
