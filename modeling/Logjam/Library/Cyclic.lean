import Mathlib

/-! Cyclic arrays. Values are written to the places of an array one after the other, and the first place follows
the last one. -/
namespace Logjam.Library.Cyclic

/-- The last values of a list, at most the given number of them. -/
def lastUpTo {α : Type*} (n : ℕ) (values : List α) : List α := values.drop (values.length-n)

/-- The arithmetic mean, which is zero for no values. -/
def average (values : List ℚ) : ℚ := values.sum/values.length

section
variable {α β : Type*} {n : ℕ} {values : List α}

@[simp] lemma length_lastUpTo : (lastUpTo n values).length = min n values.length := by
  rw [lastUpTo,List.length_drop]
  omega

lemma lastUpTo_of_le (h : values.length ≤ n) : lastUpTo n values = values := by
  rw [lastUpTo,Nat.sub_eq_zero_of_le h,List.drop_zero]

end

variable {N : ℕ} [NeZero N] {α : Type*} {buf : Fin N → α} {values : List α}

/-- The array has the last values, each at the place of its number. -/
def Holds (buf : Fin N → α) (values : List α) : Prop :=
  ∀ j < values.length,values.length ≤ j+N → values[j]? = some (buf (Fin.ofNat N j))

/-- What is read from a place on. -/
def window (buf : Fin N → α) : ℕ → Fin N → List α
  | 0,_ => []
  | n+1,p => buf p::window buf n (p+1)

lemma holds_nil : Holds buf [] := fun _ hj => absurd hj (Nat.not_lt_zero _)

/-- Two of the last numbers do not share a place. -/
lemma ofNat_ne {i j : ℕ} (hlt : i < j) (hle : j < i+N) : Fin.ofNat N i ≠ Fin.ofNat N j := by
  intro h
  have hmod : i%N = j%N := congrArg Fin.val h
  obtain ⟨c,hc⟩ := (Nat.modEq_iff_dvd' hlt.le).mp hmod
  have hpos : 0 < c := Nat.pos_of_ne_zero fun hzero => by rw [hzero] at hc; omega
  have hN : N*1 ≤ N*c := Nat.mul_le_mul_left N hpos
  omega

/-- The next value takes the place of the oldest one. -/
lemma Holds.add (h : Holds buf values) (v : α) :
    Holds (Function.update buf (Fin.ofNat N values.length) v) (values ++ [v]) := by
  intro j hj hlast
  rw [List.length_append,List.length_singleton] at hj hlast
  rcases Nat.lt_succ_iff_lt_or_eq.mp hj with hj | rfl
  · rw [List.getElem?_append_left hj,Function.update_of_ne (ofNat_ne hj (by omega)),h j hj (by omega)]
  · rw [List.getElem?_concat_length,Function.update_self]

lemma ofNat_succ (j : ℕ) : Fin.ofNat N (j+1) = Fin.ofNat N j+1 := by
  apply Fin.ext
  simp [Fin.val_add]

lemma Holds.window_eq (h : Holds buf values) {n j : ℕ} (hn : j+n = values.length) (hN : n ≤ N) :
    window buf n (Fin.ofNat N j) = values.drop j := by
  induction n generalizing j with
  | zero => rw [window,List.drop_eq_nil_of_le (by omega)]
  | succ n ih =>
    have hj : j < values.length := by omega
    have hvalue := h j hj (by omega)
    rw [List.getElem?_eq_getElem hj,Option.some.injEq] at hvalue
    rw [window,← ofNat_succ,ih (by omega) (by omega),List.drop_eq_getElem_cons hj,hvalue]

/-- Reading as many values as there can be gives the last ones, the oldest of them first. -/
theorem Holds.window_lastUpTo (h : Holds buf values) :
    window buf (min N values.length) (Fin.ofNat N (values.length-min N values.length)) = lastUpTo N values := by
  have hdrop : values.length-min N values.length = values.length-N := by omega
  rw [h.window_eq (by omega) (by omega),lastUpTo,hdrop]

/-! Sums over the whole array. -/

section
variable {M : Type*} [AddCommMonoid M] {buf : Fin N → M} {values : List M}

lemma sum_places (buf : Fin N → M) : ∑ i,buf i = ∑ i ∈ Finset.range N,buf (Fin.ofNat N i) := by
  rw [← Fin.sum_univ_eq_sum_range fun i => buf (Fin.ofNat N i)]
  simp

lemma sum_eq_sum_range (l : List M) (f : ℕ → M) (h : ∀ j < l.length,l[j]? = some (f j)) :
    l.sum = ∑ j ∈ Finset.range l.length,f j := by
  rw [← Fin.sum_univ_eq_sum_range,← Fin.sum_univ_getElem]
  refine Finset.sum_congr rfl fun j _ => ?_
  have hj := h j j.isLt
  rwa [List.getElem?_eq_getElem j.isLt,Option.some.injEq] at hj

/-- From any number on, the places come up once each. -/
lemma sum_places_from (buf : Fin N → M) (first : ℕ) :
    ∑ i,buf i = ∑ i ∈ Finset.range N,buf (Fin.ofNat N (first+i)) := by
  rw [← Equiv.sum_comp (Equiv.addLeft (Fin.ofNat N first)) buf,
    ← Fin.sum_univ_eq_sum_range fun i => buf (Fin.ofNat N (first+i))]
  refine Finset.sum_congr rfl fun i _ => congrArg buf (Fin.ext ?_)
  simp [Fin.val_add]

/-- The sum of the last values, and of what is left in places without a value. -/
theorem Holds.sum_eq (h : Holds buf values) :
    ∑ i,buf i = (lastUpTo N values).sum+∑ i ∈ Finset.Ico values.length N,buf (Fin.ofNat N i) := by
  rcases Nat.lt_or_ge values.length N with hlt | hge
  · have hvalues := sum_eq_sum_range values (fun j => buf (Fin.ofNat N j)) fun j hj => h j hj (by omega)
    rw [sum_places,lastUpTo_of_le hlt.le,hvalues,Finset.sum_range_add_sum_Ico _ hlt.le]
  · have hlength : (lastUpTo N values).length = N := by rw [length_lastUpTo,Nat.min_eq_left hge]
    have hlast : (lastUpTo N values).sum = ∑ j ∈ Finset.range N,buf (Fin.ofNat N (values.length-N+j)) := by
      have hsum := sum_eq_sum_range (lastUpTo N values) (fun j => buf (Fin.ofNat N (values.length-N+j))) fun j hj => by
        rw [hlength] at hj
        rw [lastUpTo,List.getElem?_drop]
        exact h _ (by omega) (by omega)
      rwa [hlength] at hsum
    rw [sum_places_from buf (values.length-N),hlast,Finset.Ico_eq_empty (by omega),Finset.sum_empty,add_zero]

end

end Logjam.Library.Cyclic
