import Mathlib

/-! Runs of a system that answers events with observations. A step may fail, which ends the run;
the condition restricts the events that may happen in a state. -/
namespace Logjam.Library

variable {σ ε ω φ : Type*}

inductive Run (step : σ → ε → Except φ (σ × List ω)) (allowed : σ → ε → Prop) (initial : σ) :
    List ε → σ → List ω → Prop
  | start : Run step allowed initial [] initial []
  | step {events state trace event next out} (run : Run step allowed initial events state trace)
      (ok : allowed state event) (eq : step state event = .ok (next,out)) :
      Run step allowed initial (events ++ [event]) next (trace ++ out)

variable {step : σ → ε → Except φ (σ × List ω)} {allowed : σ → ε → Prop} {initial : σ}

/-- What holds at the start and is kept by every step holds throughout. -/
theorem Run.invariant {P : List ε → σ → List ω → Prop} (h0 : P [] initial [])
    (hstep : ∀ events state trace event next out, P events state trace → allowed state event →
      step state event = .ok (next,out) → P (events ++ [event]) next (trace ++ out))
    {events : List ε} {state : σ} {trace : List ω} (h : Run step allowed initial events state trace) :
    P events state trace := by
  induction h with
  | start => exact h0
  | step _ ok eq ih => exact hstep _ _ _ _ _ _ ih ok eq

/-- One run after the other. -/
theorem Run.append {events more : List ε} {state final : σ} {trace out : List ω}
    (h : Run step allowed initial events state trace) (hmore : Run step allowed state more final out) :
    Run step allowed initial (events ++ more) final (trace ++ out) := by
  induction hmore with
  | start => rwa [List.append_nil,List.append_nil]
  | step _ ok eq ih =>
    rw [← List.append_assoc,← List.append_assoc]
    exact ih.step ok eq

end Logjam.Library
