import Mathlib

/-! Merging a list down to one element in rounds. A round pairs up the elements from the front and
hands the pairs to workers; the answers are appended behind the element that is left over, in the
order in which they arrive. -/
namespace Logjam.Library.PairwiseMerge

variable {α : Type*}

def answers (combine : α → α → α) : List α → List α
  | a :: b :: rest => combine a b :: answers combine rest
  | _ => []

def remaining : List α → List α
  | _ :: _ :: rest => remaining rest
  | l => l

/-- The order of arrival of the answers, which may be another one in every round. -/
structure Arrival (α : Type*) where
  order : ℕ → List α → List α
  perm : ∀ round l, (order round l).Perm l

def mergeRounds (combine : α → α → α) (arrival : Arrival α) : ℕ → List α → List α
  | 0, l => l
  | fuel+1, l =>
    if 1 < l.length then
      mergeRounds combine arrival fuel (remaining l ++ arrival.order fuel (answers combine l))
    else l

lemma length_round (combine : α → α → α) (l : List α) :
    (remaining l).length+(answers combine l).length = (l.length+1)/2 := by
  induction l using remaining.induct with
  | case1 a b rest ih =>
    simp only [remaining,answers,List.length_cons]
    omega
  | case2 l h =>
    match l with
    | [] => simp [remaining,answers]
    | [_] => simp [remaining,answers]
    | a :: b :: rest => exact absurd rfl (h a b rest)

variable {combine : α → α → α}

lemma forall_round {P : α → Prop} (hP : ∀ a b, P a → P b → P (combine a b)) {l : List α} (h : ∀ a ∈ l, P a) :
    (∀ a ∈ remaining l, P a) ∧ ∀ a ∈ answers combine l, P a := by
  induction l using remaining.induct with
  | case1 a b rest ih =>
    simp only [List.forall_mem_cons] at h
    obtain ⟨hremaining,hanswers⟩ := ih h.2.2
    exact ⟨hremaining,List.forall_mem_cons.mpr ⟨hP a b h.1 h.2.1,hanswers⟩⟩
  | case2 l hl =>
    match l with
    | [] => simp [remaining,answers]
    | [a] => simpa [remaining,answers] using h
    | a :: b :: rest => exact absurd rfl (hl a b rest)

/-- What combining two elements keeps is kept by all rounds. -/
theorem forall_mergeRounds {P : α → Prop} (hP : ∀ a b, P a → P b → P (combine a b)) (arrival : Arrival α) (fuel : ℕ)
    {l : List α} (h : ∀ a ∈ l, P a) : ∀ a ∈ mergeRounds combine arrival fuel l, P a := by
  induction fuel generalizing l with
  | zero => exact h
  | succ fuel ih =>
    rw [mergeRounds]
    split_ifs
    · obtain ⟨hremaining,hanswers⟩ := forall_round hP h
      refine ih fun a ha => ?_
      rcases List.mem_append.mp ha with ha | ha
      · exact hremaining a ha
      · exact hanswers a ((arrival.perm fuel _).mem_iff.mp ha)
    · exact h

variable [AddCommMonoid α]

lemma sum_round (h : ∀ a b, combine a b = a+b) (l : List α) :
    (remaining l).sum+(answers combine l).sum = l.sum := by
  induction l using remaining.induct with
  | case1 a b rest ih =>
    simp only [remaining,answers,List.sum_cons,h]
    rw [← ih]
    ac_rfl
  | case2 l hl =>
    match l with
    | [] => simp [remaining,answers]
    | [_] => simp [remaining,answers]
    | a :: b :: rest => exact absurd rfl (hl a b rest)

/-- With as many rounds as there are elements, one element is left whatever the order of arrival,
and it is the sum of them all. -/
theorem mergeRounds_eq_sum (h : ∀ a b, combine a b = a+b) (arrival : Arrival α) :
    ∀ (fuel : ℕ) (l : List α), l.length ≤ fuel → l ≠ [] → mergeRounds combine arrival fuel l = [l.sum] := by
  intro fuel
  induction fuel with
  | zero =>
    intro l hl hne
    exact absurd (List.length_eq_zero_iff.mp (Nat.le_zero.mp hl)) hne
  | succ fuel ih =>
    intro l hl hne
    have hpos := List.length_pos_iff.mpr hne
    by_cases hlen : 1 < l.length
    · have hperm := arrival.perm fuel (answers combine l)
      have hround : (remaining l ++ arrival.order fuel (answers combine l)).length = (l.length+1)/2 := by
        rw [List.length_append,hperm.length_eq,length_round]
      rw [mergeRounds,if_pos hlen,ih _ (by omega) (List.ne_nil_of_length_pos (by omega)),
        List.sum_append,hperm.sum_eq,sum_round h]
    · obtain ⟨a,rfl⟩ := List.length_eq_one_iff.mp (show l.length = 1 by omega)
      rw [mergeRounds,if_neg hlen,List.sum_singleton]

end Logjam.Library.PairwiseMerge
