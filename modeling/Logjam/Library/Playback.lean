import Logjam.Library.Run

/-! Runs that are computed: a list of events is played, as long as each of them may happen. What is of interest
in events and observations is picked out with partial functions. -/
namespace Logjam.Library

variable {σ ε ω φ : Type*}

def play (step : σ → ε → Except φ (σ × List ω)) (allowed : σ → ε → Prop)
    [∀ state event,Decidable (allowed state event)] : σ → List ε → Option (σ × List ω)
  | state,[] => some (state,[])
  | state,event::events =>
    if allowed state event then
      match step state event with
      | .ok (next,out) => (play step allowed next events).map fun r => (r.1,out ++ r.2)
      | .error _ => none
    else none

theorem Run.of_play {step : σ → ε → Except φ (σ × List ω)} {allowed : σ → ε → Prop}
    [∀ state event,Decidable (allowed state event)] {initial state : σ} {events : List ε} {trace : List ω}
    (h : play step allowed initial events = some (state,trace)) :
    Run step allowed initial events state trace := by
  induction events generalizing initial state trace with
  | nil =>
    obtain ⟨rfl,rfl⟩ := Prod.mk.inj (Option.some.inj h)
    exact .start
  | cons event events ih =>
    rw [play] at h
    split at h
    · rename_i ok
      split at h
      · rename_i next out hstep
        obtain ⟨r,hr,heq⟩ := Option.map_eq_some_iff.mp h
        obtain ⟨rfl,rfl⟩ := Prod.mk.inj heq
        exact ((Run.start).step ok hstep).append (ih hr)
      · cases h
    · cases h

lemma filterMap_append_none {α β : Type*} {f : α → Option β} (l : List α) {a : α} (h : f a = none) :
    (l ++ [a]).filterMap f = l.filterMap f := by
  rw [List.filterMap_append,List.filterMap_cons_none h,List.filterMap_nil,List.append_nil]

lemma filterMap_append_some {α β : Type*} {f : α → Option β} (l : List α) {a : α} {b : β} (h : f a = some b) :
    (l ++ [a]).filterMap f = l.filterMap f ++ [b] := by
  rw [List.filterMap_append,List.filterMap_cons_some h,List.filterMap_nil]

end Logjam.Library
