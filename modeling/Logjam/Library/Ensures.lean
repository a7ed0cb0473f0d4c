import Mathlib

/-! Postconditions of computations that may fail: what holds of the result if there is one, and that
there is one. -/
namespace Logjam.Library

universe u

variable {ε ι : Type*} {α β : Type u} {P : α → Prop} {Q : β → Prop}

def Ensures (x : Except ε α) (P : α → Prop) : Prop := ∀ a, x = .ok a → P a

lemma Ensures.ok {a : α} (h : P a) : Ensures (.ok a : Except ε α) P := by
  intro b hb
  exact Except.ok.inj hb ▸ h

lemma Ensures.error {e : ε} : Ensures (.error e : Except ε α) P := by
  intro b hb
  cases hb

lemma ensures_true (x : Except ε α) : Ensures x fun _ => True := fun _ _ => trivial

lemma Ensures.bind {x : Except ε α} {f : α → Except ε β} (hx : Ensures x P)
    (hf : ∀ a, P a → Ensures (f a) Q) : Ensures (x >>= f) Q := by
  cases x with
  | error e => exact Ensures.error
  | ok a => exact hf a (hx a rfl)

lemma Ensures.ite {c : Prop} [Decidable c] {x y : Except ε α} (hx : c → Ensures x P) (hy : ¬c → Ensures y P) :
    Ensures (if c then x else y) P := by
  by_cases h : c
  · rw [if_pos h]
    exact hx h
  · rw [if_neg h]
    exact hy h

/-- A loop keeps an invariant if every round does. -/
lemma Ensures.foldlM {f : α → ι → Except ε α} {l : List ι} (hf : ∀ a, P a → ∀ i ∈ l, Ensures (f a i) P)
    {a : α} (h : P a) : Ensures (l.foldlM f a) P := by
  induction l generalizing a with
  | nil => exact Ensures.ok h
  | cons i l ih =>
    rw [List.foldlM_cons]
    exact (hf a h i List.mem_cons_self).bind fun b hb =>
      ih (fun c hc j hj => hf c hc j (List.mem_cons_of_mem _ hj)) hb

/-- A sequence succeeds if both of its parts do. -/
lemma bind_eq_ok_iff {x : Except ε α} {f : α → Except ε β} {b : β} :
    x >>= f = .ok b ↔ ∃ a, x = .ok a ∧ f a = .ok b := by
  cases x with
  | error e => exact ⟨nofun,nofun⟩
  | ok a => exact ⟨fun h => ⟨a,rfl,h⟩,fun ⟨_,ha,h⟩ => Except.ok.inj ha ▸ h⟩

lemma mapError_eq_ok_iff {δ : Type*} {f : δ → ε} {x : Except δ α} {a : α} : x.mapError f = .ok a ↔ x = .ok a := by
  cases x with
  | error e => exact ⟨nofun,nofun⟩
  | ok b => exact ⟨fun h => congrArg _ (Except.ok.inj h),fun h => congrArg _ (Except.ok.inj h)⟩

/-- The computation succeeds with a result as required. -/
def Yields (x : Except ε α) (P : α → Prop) : Prop := ∃ a, x = .ok a ∧ P a

lemma Yields.ok {a : α} (h : P a) : Yields (.ok a : Except ε α) P := ⟨a,rfl,h⟩

lemma exists_ok_of_isOk {x : Except ε α} (h : x.isOk = true) : ∃ a, x = .ok a := by
  cases x with
  | error e => cases h
  | ok a => exact ⟨a,rfl⟩

/-- A result is known by what can be read off from it. -/
lemma exists_ok_of_toOption_map {x : Except ε α} {f : α → β} {b : β} (h : x.toOption.map f = some b) :
    ∃ a, x = .ok a ∧ f a = b := by
  cases x with
  | error e => cases h
  | ok a => exact ⟨a,rfl,Option.some.inj h⟩

lemma Yields.bind {x : Except ε α} {f : α → Except ε β} (hx : Yields x P)
    (hf : ∀ a, P a → Yields (f a) Q) : Yields (x >>= f) Q := by
  obtain ⟨a,rfl,ha⟩ := hx
  exact hf a ha

/-- A loop of rounds that succeed and keep an invariant succeeds. -/
lemma Yields.foldlM {f : α → ι → Except ε α} {l : List ι} (hf : ∀ a, P a → ∀ i ∈ l, Yields (f a i) P)
    {a : α} (h : P a) : Yields (l.foldlM f a) P := by
  induction l generalizing a with
  | nil => exact Yields.ok h
  | cons i l ih =>
    rw [List.foldlM_cons]
    exact (hf a h i List.mem_cons_self).bind fun b hb =>
      ih (fun c hc j hj => hf c hc j (List.mem_cons_of_mem _ hj)) hb

/-- A loop whose rounds depend on the element only succeeds if each of them does. -/
lemma exists_foldlM_iff {f : α → ι → Except ε α} {c : ι → Prop} (hf : ∀ a i, (∃ b, f a i = .ok b) ↔ c i)
    (l : List ι) (a : α) : (∃ b, l.foldlM f a = .ok b) ↔ ∀ i ∈ l, c i := by
  induction l generalizing a with
  | nil => exact iff_of_true ⟨a,rfl⟩ (List.forall_mem_nil c)
  | cons i l ih =>
    rw [List.foldlM_cons,List.forall_mem_cons,← hf a i]
    constructor
    · rintro ⟨b,h⟩
      obtain ⟨next,hnext,hrest⟩ := bind_eq_ok_iff.mp h
      exact ⟨⟨next,hnext⟩,(ih next).mp ⟨b,hrest⟩⟩
    · rintro ⟨⟨next,hnext⟩,hl⟩
      obtain ⟨b,hb⟩ := (ih next).mpr hl
      exact ⟨b,bind_eq_ok_iff.mpr ⟨next,hnext,hb⟩⟩

/-- What every round that succeeds tells about its element, a loop that succeeds tells about all of them. -/
lemma forall_of_foldlM {f : α → ι → Except ε α} {c : ι → Prop} (hf : ∀ a i b, f a i = .ok b → c i) {l : List ι} {a b : α}
    (h : l.foldlM f a = .ok b) : ∀ i ∈ l, c i := by
  induction l generalizing a with
  | nil => exact List.forall_mem_nil c
  | cons i l ih =>
    rw [List.foldlM_cons] at h
    obtain ⟨next,hnext,hrest⟩ := bind_eq_ok_iff.mp h
    exact List.forall_mem_cons.mpr ⟨hf a i next hnext,ih hrest⟩

/-- A loop simulates another one that cannot fail if every round does. -/
lemma Yields.foldlM_foldl {γ : Type*} {R : α → γ → Prop} {f : α → ι → Except ε α} {g : γ → ι → γ}
    (hf : ∀ a c, R a c → ∀ i, Yields (f a i) fun b => R b (g c i)) (l : List ι) {a : α} {c : γ} (h : R a c) :
    Yields (l.foldlM f a) fun b => R b (l.foldl g c) := by
  induction l generalizing a c with
  | nil => exact Yields.ok h
  | cons i l ih =>
    rw [List.foldlM_cons]
    exact (hf a c h i).bind fun b hb => ih hb

/-- A list of computations succeeds if each of them does. -/
lemma mapM_eq_ok_iff {f : ι → Except ε α} {l : List ι} {result : List α} :
    l.mapM f = .ok result ↔ List.Forall₂ (fun i a => f i = .ok a) l result := by
  induction l generalizing result with
  | nil => simp [pure,Except.pure,eq_comm]
  | cons i l ih =>
    rw [List.mapM_cons,List.forall₂_cons_left_iff]
    constructor
    · intro h
      cases hi : f i with
      | error e =>
        rw [hi] at h
        cases h
      | ok a =>
        cases hl : l.mapM f with
        | error e =>
          rw [hi,hl] at h
          cases h
        | ok rest =>
          rw [hi,hl] at h
          exact ⟨a,rest,rfl,ih.mp hl,(Except.ok.inj h).symm⟩
    · rintro ⟨a,rest,hi,hl,rfl⟩
      rw [hi,ih.mpr hl]
      rfl

lemma exists_mapM_iff {f : ι → Except ε α} {l : List ι} :
    (∃ result, l.mapM f = .ok result) ↔ ∀ i ∈ l, ∃ a, f i = .ok a := by
  simp only [mapM_eq_ok_iff]
  induction l with
  | nil => simp
  | cons i l ih =>
    rw [List.forall_mem_cons,← ih]
    constructor
    · rintro ⟨_,hresult⟩
      obtain ⟨a,rest,ha,hrest,-⟩ := List.forall₂_cons_left_iff.mp hresult
      exact ⟨⟨a,ha⟩,rest,hrest⟩
    · rintro ⟨⟨a,ha⟩,rest,hrest⟩
      exact ⟨a::rest,.cons ha hrest⟩

lemma exists_of_mem_mapM {f : ι → Except ε α} {l : List ι} {result : List α} (h : l.mapM f = .ok result) {a : α}
    (ha : a ∈ result) : ∃ i ∈ l, f i = .ok a := by
  have hall := mapM_eq_ok_iff.mp h
  clear h
  induction hall with
  | nil => cases ha
  | cons hi _ ih =>
    rcases List.mem_cons.mp ha with rfl | ha
    · exact ⟨_,List.mem_cons_self,hi⟩
    · obtain ⟨j,hj,hok⟩ := ih ha
      exact ⟨j,List.mem_cons_of_mem _ hj,hok⟩

/-! Faults that do not occur. -/

/-- The computation does not end with one of the given errors. -/
def Avoids (bad : ε → Prop) (x : Except ε α) : Prop := ∀ e, x = .error e → ¬bad e

section
variable {bad : ε → Prop} {x : Except ε α} {f : α → Except ε β}

lemma avoids_ok (a : α) : Avoids bad (.ok a : Except ε α) := by
  intro e he
  cases he

lemma avoids_error_iff {e : ε} : Avoids bad (.error e : Except ε α) ↔ ¬bad e :=
  ⟨fun h => h e rfl,fun h _ he => Except.error.inj he ▸ h⟩

/-- Errors of a part are kept apart from the given ones. -/
lemma avoids_mapError {δ : Type*} {f : δ → ε} (h : ∀ e, ¬bad (f e)) (x : Except δ α) : Avoids bad (x.mapError f) := by
  cases x with
  | error e => exact avoids_error_iff.mpr (h e)
  | ok a => exact avoids_ok a

lemma avoids_of_eq_ok {a : α} (h : x = .ok a) : Avoids bad x := h ▸ avoids_ok a

/-- A sequence avoids the errors if both of its parts do. -/
lemma avoids_bind_iff : Avoids bad (x >>= f) ↔ Avoids bad x ∧ ∀ a, x = .ok a → Avoids bad (f a) := by
  cases x with
  | error e =>
    rw [avoids_error_iff,and_iff_left fun a ha => by cases ha]
    exact avoids_error_iff
  | ok a => exact ⟨fun h => ⟨avoids_ok a,fun b hb => Except.ok.inj hb ▸ h⟩,fun h => h.2 a rfl⟩

lemma Avoids.bind (hx : Avoids bad x) (hf : ∀ a, x = .ok a → Avoids bad (f a)) : Avoids bad (x >>= f) :=
  avoids_bind_iff.mpr ⟨hx,hf⟩

lemma avoids_bind_of_eq_ok {a : α} (h : x = .ok a) : Avoids bad (x >>= f) ↔ Avoids bad (f a) := by
  rw [h]
  rfl

lemma avoids_bind_pure_iff {g : α → β} : Avoids bad (x >>= fun a => pure (g a)) ↔ Avoids bad x := by
  rw [avoids_bind_iff]
  exact and_iff_left fun a _ => avoids_ok (g a)

lemma Avoids.foldlM {f : α → ι → Except ε α} {l : List ι} (hf : ∀ a, ∀ i ∈ l, Avoids bad (f a i)) (a : α) :
    Avoids bad (l.foldlM f a) := by
  induction l generalizing a with
  | nil => exact avoids_ok a
  | cons i l ih =>
    rw [List.foldlM_cons]
    exact (hf a i List.mem_cons_self).bind fun b _ => ih (fun c j hj => hf c j (List.mem_cons_of_mem _ hj)) b

/-- All errors of the computation are among the given ones. -/
def FailsOnly (bad : ε → Prop) (x : Except ε α) : Prop := ∀ e, x = .error e → bad e

lemma failsOnly_ok (a : α) : FailsOnly bad (.ok a : Except ε α) := by
  intro e he
  cases he

lemma failsOnly_error {e : ε} (h : bad e) : FailsOnly bad (.error e : Except ε α) := by
  intro e' he
  exact Except.error.inj he ▸ h

lemma FailsOnly.bind (hx : FailsOnly bad x) (hf : ∀ a, FailsOnly bad (f a)) : FailsOnly bad (x >>= f) := by
  cases x with
  | error e => exact failsOnly_error (hx e rfl)
  | ok a => exact hf a

lemma FailsOnly.foldlM {f : α → ι → Except ε α} (hf : ∀ a i, FailsOnly bad (f a i)) (l : List ι) (a : α) :
    FailsOnly bad (l.foldlM f a) := by
  induction l generalizing a with
  | nil => exact failsOnly_ok a
  | cons i l ih =>
    rw [List.foldlM_cons]
    exact (hf a i).bind ih

/-- Such a computation avoids its errors by succeeding. -/
lemma FailsOnly.avoids_iff (h : FailsOnly bad x) : Avoids bad x ↔ ∃ a, x = .ok a := by
  constructor
  · intro havoids
    cases x with
    | error e => exact absurd (h e rfl) (havoids e rfl)
    | ok a => exact ⟨a,rfl⟩
  · rintro ⟨a,rfl⟩
    exact avoids_ok a

/-- What a sequence needs is what its second part needs, if that is enough for the first one. -/
lemma FailsOnly.avoids_bind_iff (h : FailsOnly bad x) {C : Prop} (hx : C → Avoids bad x)
    (hf : ∀ a, x = .ok a → (Avoids bad (f a) ↔ C)) : Avoids bad (x >>= f) ↔ C := by
  constructor
  · intro havoids
    obtain ⟨hfirst,hrest⟩ := Library.avoids_bind_iff.mp havoids
    obtain ⟨a,ha⟩ := h.avoids_iff.mp hfirst
    exact (hf a ha).mp (hrest a ha)
  · intro hC
    exact (hx hC).bind fun a ha => (hf a ha).mpr hC

end

end Logjam.Library
