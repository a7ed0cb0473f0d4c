import Mathlib

/-! Gaps in lists of natural numbers. What an increasing list leaves out between its first and its
last element can be counted from one element to the next. -/
namespace Logjam.Library.Gaps

/-- The numbers passed over between neighbours; a step that does not go up passes over none. -/
def skipped : List ℕ → ℕ
  | a::b::rest => (b-a-1)+skipped (b::rest)
  | _ => 0

/-- The numbers between the first and the last element that are not in the list. -/
def missing : List ℕ → Finset ℕ
  | [] => ∅
  | a::rest => Finset.Icc a (rest.getLastD a) \ (a::rest).toFinset

/-- The second list does not begin above the last element of the first. -/
def StartsOver (s t : List ℕ) : Prop := ∀ a ∈ s.getLast?, ∀ b ∈ t.head?, b ≤ a

lemma le_getLastD {a : ℕ} {rest : List ℕ} (h : (a::rest).Pairwise (· < ·)) :
    ∀ x ∈ a::rest, x ≤ rest.getLastD a := by
  induction rest generalizing a with
  | nil => simp
  | cons b rest ih =>
    obtain ⟨ha,hrest⟩ := List.pairwise_cons.mp h
    have hlast := ih hrest
    intro x hx
    rw [List.getLastD_cons]
    rcases List.mem_cons.mp hx with rfl | hx
    · exact (ha b List.mem_cons_self).le.trans (hlast b List.mem_cons_self)
    · exact hlast x hx

/-- The distance from the first to the last element is made of the elements and the gaps. -/
lemma add_skipped {a : ℕ} {rest : List ℕ} (h : (a::rest).Pairwise (· < ·)) :
    a+skipped (a::rest)+rest.length = rest.getLastD a := by
  induction rest generalizing a with
  | nil => rfl
  | cons b rest ih =>
    obtain ⟨ha,hrest⟩ := List.pairwise_cons.mp h
    have hb := ha b List.mem_cons_self
    have hlast := ih hrest
    rw [List.getLastD_cons,← hlast,skipped,List.length_cons]
    omega

theorem card_missing {l : List ℕ} (h : l.Pairwise (· < ·)) : (missing l).card = skipped l := by
  cases l with
  | nil => rfl
  | cons a rest =>
    have hsub : (a::rest).toFinset ⊆ Finset.Icc a (rest.getLastD a) := by
      intro x hx
      rw [List.mem_toFinset] at hx
      refine Finset.mem_Icc.mpr ⟨?_,le_getLastD h x hx⟩
      rcases List.mem_cons.mp hx with rfl | hx
      · exact le_rfl
      · exact (List.rel_of_pairwise_cons h hx).le
    have hcard : (a::rest).toFinset.card = rest.length+1 :=
      List.toFinset_card_of_nodup (h.imp ne_of_lt)
    have hsum := add_skipped h
    rw [missing,Finset.card_sdiff_of_subset hsub,hcard,Nat.card_Icc]
    omega

lemma skipped_append {s t : List ℕ} (h : StartsOver s t) : skipped (s ++ t) = skipped s+skipped t := by
  induction s with
  | nil => simp [skipped]
  | cons a s ih =>
    cases s with
    | nil =>
      cases t with
      | nil => rfl
      | cons b t =>
        have hba : b ≤ a := h a (by simp) b (by simp)
        simp only [List.cons_append,List.nil_append,skipped]
        omega
    | cons a' s =>
      have hrest := ih fun x hx => h x (by simpa using hx)
      rw [List.cons_append] at hrest
      rw [List.cons_append,List.cons_append,skipped,skipped,hrest,add_assoc]

/-- Where a list starts over, the gaps of its parts add up. -/
theorem skipped_flatten {parts : List (List ℕ)} (hne : ∀ s ∈ parts, s ≠ [])
    (h : parts.IsChain StartsOver) : skipped parts.flatten = (parts.map skipped).sum := by
  induction parts with
  | nil => rfl
  | cons s parts ih =>
    have hrest := ih (fun t ht => hne t (List.mem_cons_of_mem s ht)) h.tail
    rw [List.map_cons,List.sum_cons,← hrest]
    cases parts with
    | nil => simp [skipped]
    | cons t parts =>
      rw [List.isChain_cons_cons] at h
      have ht : t ≠ [] := hne t (by simp)
      rw [List.flatten_cons,skipped_append]
      intro a ha b hb
      rw [List.flatten_cons,List.head?_append_of_ne_nil _ ht] at hb
      exact h.1 a ha b hb

end Logjam.Library.Gaps
