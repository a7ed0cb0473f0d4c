import Mathlib

/-! Integers in a floating-point format. The significand has a number of bits, and of two neighbours that are
equally near the one with the even significand is taken. -/
namespace Logjam.Library

/-- The nearest number whose significand has as many bits as given, and one more. -/
def nearest (bits m : ℕ) : ℕ :=
  let unit := 2^(m.log2-bits)
  let significand := m/unit
  if 2*(m%unit) < unit ∨ 2*(m%unit) = unit ∧ significand%2 = 0 then significand*unit else (significand+1)*unit

variable {bits m : ℕ}

/-- Numbers that fit are exact. -/
lemma nearest_of_lt (h : m < 2^(bits+1)) : nearest bits m = m := by
  have hlog : m.log2-bits = 0 := by
    rcases Nat.eq_zero_or_pos m with rfl | hpos
    · simp
    · have hlt := (Nat.log2_lt hpos.ne').mpr h
      omega
  simp [nearest,hlog,Nat.mod_one]

/-- The others stay out of the range of those that fit. -/
lemma le_nearest (h : 2^(bits+1) ≤ m) : 2^(bits+1) ≤ nearest bits m := by
  have hne : m ≠ 0 := (Nat.lt_of_lt_of_le (Nat.two_pow_pos _) h).ne'
  have hlog : bits+1 ≤ m.log2 := (Nat.le_log2 hne).mpr h
  obtain ⟨e,he⟩ : ∃ e,m.log2 = bits+(e+1) := ⟨m.log2-bits-1,by omega⟩
  have hunit : m.log2-bits = e+1 := by omega
  have hsignificand : 2^bits ≤ m/2^(e+1) := by
    rw [Nat.le_div_iff_mul_le (Nat.two_pow_pos _),← Nat.pow_add,← he]
    exact Nat.log2_self_le hne
  have hscaled : 2^(bits+1) ≤ m/2^(e+1)*2^(e+1) :=
    calc 2^(bits+1) = 2^bits*2^1 := Nat.pow_add 2 bits 1
      _ ≤ m/2^(e+1)*2^(e+1) := Nat.mul_le_mul hsignificand (Nat.pow_le_pow_right (by decide) (by omega))
  simp only [nearest,hunit]
  split
  · exact hscaled
  · exact hscaled.trans (Nat.mul_le_mul_right _ (Nat.le_succ _))

end Logjam.Library
