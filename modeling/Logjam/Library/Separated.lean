import Mathlib

/-! Where a word can occur in a text that is put together with separators. -/
namespace Logjam.Library

variable {α : Type*} {word : List α} {sep : α}

/-- A word without the separator lies on one side of it. -/
lemma infix_append_cons_iff (hsep : sep ∉ word) (a b : List α) :
    word <:+: a ++ sep::b ↔ word <:+: a ∨ word <:+: b := by
  constructor
  · rintro ⟨s,t,h⟩
    rcases List.append_eq_append_iff.mp h with ⟨c,rfl,-⟩ | ⟨c,hs,hb⟩
    · exact .inl ⟨s,c,rfl⟩
    · cases c with
      | nil => exact .inl ⟨s,[],by rw [hs,List.append_nil,List.append_nil]⟩
      | cons x c =>
        obtain ⟨rfl,rfl⟩ := List.cons.inj hb
        -- the word does not reach back over the separator
        rcases List.append_eq_append_iff.mp hs with ⟨d,-,hd⟩ | ⟨d,-,hd⟩
        · exact absurd (hd ▸ List.mem_append_right d List.mem_cons_self) hsep
        · cases d with
          | nil => exact absurd (hd ▸ List.mem_cons_self : sep ∈ [] ++ word) hsep
          | cons y d =>
            obtain ⟨-,rfl⟩ := List.cons.inj hd
            exact .inr ⟨d,t,rfl⟩
  · rintro (⟨s,t,rfl⟩ | ⟨s,t,rfl⟩)
    · exact ⟨s,t ++ sep::b,by simp⟩
    · exact ⟨a ++ sep::s,t,by simp⟩

/-- Only the empty word is in the empty text, and it is in every text. -/
lemma infix_or_nil_iff (text : List α) : word <:+: text ∨ word <:+: [] ↔ word <:+: text := by
  refine or_iff_left_of_imp fun h => ?_
  obtain rfl := List.infix_nil.mp h
  exact ⟨[],text,rfl⟩

lemma infix_cons_iff_of_notMem (hsep : sep ∉ word) (text : List α) : word <:+: sep::text ↔ word <:+: text := by
  have h := infix_append_cons_iff hsep [] text
  rw [List.nil_append] at h
  rw [h,or_comm,infix_or_nil_iff]

/-- A text that lacks one of the letters does not contain the word. -/
lemma not_infix_of_notMem {c : α} (hc : c ∈ word) {text : List α} (htext : c ∉ text) : ¬word <:+: text :=
  fun h => htext (h.subset hc)

end Logjam.Library
