import Mathlib

/-! Fallible updates of a commutative monoid that add an increment of their own. A sequence of
such updates adds the sum of the increments, so neither the order of the updates nor a split of
the sequence into independently collected parts can be seen in the total. Updates may return more
than the new state; the state acts on what they return. -/
namespace Logjam.Library.Translation

universe u
variable {M α : Type u} {ε ι : Type*} [AddCommMonoid M] [AddAction M α]

/-- The result of a total function moves along with its argument. -/
def IsShift (g : M → α) : Prop := ∀ p, g p = p +ᵥ g 0

/-- The result of a fallible function moves along with its argument, or it always fails. -/
def IsTranslation (f : M → Except ε α) : Prop := ∀ p, f p = (f 0).map (p +ᵥ ·)

theorem isShift_id : IsShift (fun p : M => p) := by
  intro p
  simp

theorem IsShift.comp {g : M → M} {h : M → α} (hg : IsShift g) (hh : IsShift h) :
    IsShift (fun p => h (g p)) := by
  intro p
  change h (g p) = p +ᵥ h (g 0)
  rw [hh (g p),hh (g 0),hg p,vadd_eq_add,add_vadd]

theorem IsShift.ite {c : Prop} [Decidable c] {g h : M → α} (hg : IsShift g) (hh : IsShift h) :
    IsShift (fun p => if c then g p else h p) := by
  by_cases hc : c
  · simpa only [hc,if_true] using hg
  · simpa only [hc,if_false] using hh

theorem isTranslation_error (e : ε) : IsTranslation (fun _ : M => (.error e : Except ε α)) :=
  fun _ => rfl

theorem IsShift.ok {g : M → α} (hg : IsShift g) :
    IsTranslation (fun p => (.ok (g p) : Except ε α)) := by
  intro p
  change Except.ok (g p) = Except.ok (p +ᵥ g 0)
  rw [hg p]

/-- A shift before a translation. -/
theorem IsShift.trans {g : M → M} {f : M → Except ε α} (hg : IsShift g) (hf : IsTranslation f) :
    IsTranslation (fun p => f (g p)) := by
  intro p
  change f (g p) = (f (g 0)).map (p +ᵥ ·)
  rw [hf (g p),hf (g 0),hg p]
  cases f 0 with
  | error e => rfl
  | ok d => simp [Except.map,add_vadd]

/-- Two translations in sequence. -/
theorem IsTranslation.bind {f : M → Except ε M} {g : M → Except ε α}
    (hf : IsTranslation f) (hg : IsTranslation g) : IsTranslation (fun p => f p >>= g) := by
  intro p
  change f p >>= g = (f 0 >>= g).map (p +ᵥ ·)
  rw [hf p]
  cases f 0 with
  | error e => rfl
  | ok d =>
    change g (p+d) = (g d).map (p +ᵥ ·)
    rw [hg (p+d),hg d]
    cases g 0 with
    | error e => rfl
    | ok c => simp [Except.map,add_vadd]

/-- A computation that does not look at the state may fail or choose the translation. -/
theorem isTranslation_bind {γ : Type u} (x : Except ε γ) {f : γ → M → Except ε α}
    (hf : ∀ a, IsTranslation (f a)) : IsTranslation (fun p => x >>= fun a => f a p) := by
  cases x with
  | error e => exact isTranslation_error e
  | ok a => exact hf a

theorem IsTranslation.ite {c : Prop} [Decidable c] {f g : M → Except ε α}
    (hf : IsTranslation f) (hg : IsTranslation g) : IsTranslation (fun p => if c then f p else g p) := by
  by_cases hc : c
  · simpa only [hc,if_true] using hf
  · simpa only [hc,if_false] using hg

/-- A loop of translations is a translation. -/
theorem IsTranslation.foldlM {f : M → ι → Except ε M} (hf : ∀ i, IsTranslation (fun p => f p i))
    (l : List ι) : IsTranslation (fun p => l.foldlM f p) := by
  induction l with
  | nil => exact isShift_id.ok
  | cons i l ih => exact (hf i).bind ih

/-- The increment a successful translation adds. -/
def increment (f : M → Except ε M) : M :=
  match f 0 with
  | .ok d => d
  | .error _ => 0

theorem IsTranslation.eq_ok {f : M → Except ε M} (hf : IsTranslation f) (h : ∃ d, f 0 = .ok d) (p : M) :
    f p = .ok (p+increment f) := by
  obtain ⟨d,hd⟩ := h
  rw [hf p,increment,hd]
  rfl

/-- Whether a translation succeeds does not depend on the state. -/
theorem IsTranslation.exists_of_eq_ok {f : M → Except ε α} (hf : IsTranslation f) {p : M} {r : α} (h : f p = .ok r) :
    ∃ d, f 0 = .ok d := by
  rw [hf p] at h
  cases hzero : f 0 with
  | error e =>
    rw [hzero] at h
    cases h
  | ok d => exact ⟨d,rfl⟩

theorem exists_of_foldlM_eq_ok {f : ι → M → Except ε M} (hf : ∀ i, IsTranslation (f i)) {l : List ι} {p r : M}
    (h : l.foldlM (fun p i => f i p) p = .ok r) : ∀ i ∈ l, ∃ d, f i 0 = .ok d := by
  induction l generalizing p with
  | nil => simp
  | cons i l ih =>
    rw [List.foldlM_cons] at h
    cases hi : f i p with
    | error e =>
      rw [hi] at h
      cases h
    | ok q =>
      rw [hi] at h
      rw [List.forall_mem_cons]
      exact ⟨(hf i).exists_of_eq_ok hi,ih h⟩

/-- A run of translations that all succeed adds the sum of their increments. -/
theorem foldlM_eq_ok {f : ι → M → Except ε M} (hf : ∀ i, IsTranslation (f i)) (l : List ι)
    (h : ∀ i ∈ l, ∃ d, f i 0 = .ok d) (p : M) :
    l.foldlM (fun p i => f i p) p = .ok (p+(l.map fun i => increment (f i)).sum) := by
  induction l generalizing p with
  | nil => simp [pure,Except.pure]
  | cons i l ih =>
    have hi := (hf i).eq_ok (h i (by simp)) p
    have hl := ih (fun j hj => h j (by simp [hj])) (p+increment (f i))
    simp only [List.foldlM_cons,hi,List.map_cons,List.sum_cons]
    rw [← add_assoc]
    exact hl

end Logjam.Library.Translation
