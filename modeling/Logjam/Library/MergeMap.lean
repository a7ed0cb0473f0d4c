import Mathlib

/-! Finite maps whose values carry a commutative addition. The merge of two maps is the loop
that empties one map into the other: a key the target lacks moves over, a key it has is added.
The loop is a commutative monoid operation as soon as the addition is a commutative semigroup
operation; no neutral value is needed, since an absent key plays that part. -/
namespace Logjam.Library.MergeMap
open Std

variable {K V : Type*} [Ord K] [TransOrd K]

/-- Store a value under a key, combining it with the value already there. -/
def combineAt (combine : V → V → V) (m : ExtTreeMap K V compare) (k : K) (v : V) :
    ExtTreeMap K V compare :=
  match m[k]? with
  | some w => m.insert k (combine w v)
  | none => m.insert k v

/-- Empty the source into the target, one entry of the source at a time. -/
def drain (combine : V → V → V) :
    ℕ → ExtTreeMap K V compare → ExtTreeMap K V compare → ExtTreeMap K V compare
  | 0,target,_ => target
  | n+1,target,source =>
    match source.toList.head? with
    | none => target
    | some e => drain combine n (combineAt combine target e.1 e.2) (source.erase e.1)

/-- The drain loop run to its end: every iteration removes one entry of the source. -/
def mergeWith (combine : V → V → V) (target source : ExtTreeMap K V compare) :
    ExtTreeMap K V compare := drain combine source.size target source

/-- Visit every entry of the source, leaving the source as it is. -/
def foreachWith (combine : V → V → V) (target source : ExtTreeMap K V compare) :
    ExtTreeMap K V compare :=
  source.toList.foldl (fun m e => combineAt combine m e.1 e.2) target

lemma eq_empty_of_head? {m : ExtTreeMap K V compare} (h : m.toList.head? = none) : m = ∅ := by
  have hl : m.toList = [] := List.head?_eq_none_iff.mp h
  apply ExtTreeMap.eq_empty_iff_size_eq_zero.mpr
  rw [← ExtTreeMap.length_toList,hl]
  rfl

lemma getElem?_of_head? [LawfulEqOrd K] {m : ExtTreeMap K V compare} {e : K × V}
    (h : m.toList.head? = some e) : m[e.1]? = some e.2 :=
  ExtTreeMap.mem_toList_iff_getElem?_eq_some.mp (List.mem_of_mem_head? h)

/-- What a map holds at a key, with absence read as zero. -/
def value (m : ExtTreeMap K V compare) (k : K) : WithZero V := m[k]?

@[simp] theorem value_empty (k : K) : value (∅ : ExtTreeMap K V compare) k = 0 :=
  ExtTreeMap.getElem?_empty

instance instZero : Zero (ExtTreeMap K V compare) := ⟨∅⟩
instance instAdd [Add V] : Add (ExtTreeMap K V compare) := ⟨mergeWith (· + ·)⟩

@[simp] theorem value_zero (k : K) : value (0 : ExtTreeMap K V compare) k = 0 := value_empty k

/-- Every entry has the property. -/
def AllValues (P : V → Prop) (m : ExtTreeMap K V compare) : Prop := ∀ (k : K) (v : V), m[k]? = some v → P v

theorem allValues_zero {P : V → Prop} : AllValues P (0 : ExtTreeMap K V compare) := by
  intro k v h
  rw [show (0 : ExtTreeMap K V compare)[k]? = none from ExtTreeMap.getElem?_empty] at h
  cases h

/-- A loop whose combining step computes the addition is the addition of the maps. -/
theorem mergeWith_eq_add [Add V] {combine : V → V → V} (h : ∀ a b, combine a b = a+b)
    (target source : ExtTreeMap K V compare) : mergeWith combine target source = target+source := by
  have hc : combine = (· + ·) := by
    funext a b
    exact h a b
  rw [hc]
  rfl

/-- The map with a single entry. -/
def single (k : K) (v : V) : ExtTreeMap K V compare := (∅ : ExtTreeMap K V compare).insert k v

variable [LawfulEqOrd K]

theorem ext_value {m₁ m₂ : ExtTreeMap K V compare} (h : ∀ k, value m₁ k = value m₂ k) : m₁ = m₂ :=
  ExtTreeMap.ext_getElem? h

variable [DecidableEq K]

lemma value_insert (m : ExtTreeMap K V compare) (k j : K) (v : V) :
    value (m.insert k v) j = if k = j then (v : WithZero V) else value m j := by
  by_cases h : k = j
  · subst j
    rw [if_pos rfl]
    exact ExtTreeMap.getElem?_insert_self
  · have hne : ¬ compare k j = .eq := fun hc => h (Std.compare_eq_iff_eq.mp hc)
    rw [if_neg h]
    exact ExtTreeMap.getElem?_insert.trans (if_neg hne)

lemma value_erase (m : ExtTreeMap K V compare) (k j : K) :
    value (m.erase k) j = if k = j then 0 else value m j := by
  by_cases h : k = j
  · subst j
    rw [if_pos rfl]
    exact ExtTreeMap.getElem?_erase_self
  · have hne : ¬ compare k j = .eq := fun hc => h (Std.compare_eq_iff_eq.mp hc)
    rw [if_neg h]
    exact ExtTreeMap.getElem?_erase.trans (if_neg hne)

lemma value_single (k j : K) (v : V) : value (single k v) j = if k = j then (v : WithZero V) else 0 := by
  rw [single,value_insert,value_empty]

theorem allValues_single {P : V → Prop} {k : K} {v : V} (h : P v) : AllValues P (single k v) := by
  intro j w hw
  rw [show (single k v)[j]? = _ from value_single k j v] at hw
  split_ifs at hw
  exact Option.some.inj hw ▸ h

/-! Combining entries of a list into a map one after the other, when the keys are distinct. -/

lemma getElem?_combineAt (combine : V → V → V) (m : ExtTreeMap K V compare) (k j : K) (v : V) :
    (combineAt combine m k v)[j]? =
      if k = j then some (((m[j]?).map (combine · v)).getD v) else m[j]? := by
  have hi : ∀ w, (m.insert k w)[j]? = if k = j then some w else m[j]? := fun w => value_insert m k j w
  unfold combineAt
  cases h : m[k]? with
  | none =>
    rw [hi]
    by_cases hk : k = j
    · subst hk
      simp [h]
    · rw [if_neg hk,if_neg hk]
  | some w =>
    rw [hi]
    by_cases hk : k = j
    · subst hk
      simp [h]
    · rw [if_neg hk,if_neg hk]

lemma getElem?_foldl_of_notMem (combine : V → V → V) {l : List (K × V)} {j : K} (h : ∀ e ∈ l, e.1 ≠ j)
    (m : ExtTreeMap K V compare) :
    (l.foldl (fun m e => combineAt combine m e.1 e.2) m)[j]? = m[j]? := by
  induction l generalizing m with
  | nil => rfl
  | cons e l ih =>
    rw [List.foldl_cons,ih (fun x hx => h x (List.mem_cons_of_mem _ hx)),getElem?_combineAt,
      if_neg (h e List.mem_cons_self)]

lemma getElem?_foldl_of_mem (combine : V → V → V) {l : List (K × V)} {j : K} {v : V}
    (hd : l.Pairwise fun a b => a.1 ≠ b.1) (h : (j,v) ∈ l) (m : ExtTreeMap K V compare) :
    (l.foldl (fun m e => combineAt combine m e.1 e.2) m)[j]? =
      some (((m[j]?).map (combine · v)).getD v) := by
  induction l generalizing m with
  | nil => cases h
  | cons e l ih =>
    obtain ⟨he,hl⟩ := List.pairwise_cons.mp hd
    rw [List.foldl_cons]
    rcases List.mem_cons.mp h with rfl | h
    · rw [getElem?_foldl_of_notMem combine (fun x hx => (he x hx).symm),getElem?_combineAt,if_pos rfl]
    · rw [ih hl h,getElem?_combineAt,if_neg (he (j,v) h)]

section Addition
variable [AddCommSemigroup V]

theorem value_combineAt (m : ExtTreeMap K V compare) (k j : K) (v : V) :
    value (combineAt (· + ·) m k v) j = if k = j then value m j + (v : WithZero V) else value m j := by
  unfold combineAt
  cases h : m[k]? with
  | none =>
    have hv : value m k = 0 := h
    rw [value_insert]
    by_cases hk : k = j
    · subst j
      simp [hv]
    · simp [hk]
  | some w =>
    have hv : value m k = (w : WithZero V) := h
    rw [value_insert]
    by_cases hk : k = j
    · subst j
      simp [hv]
    · simp [hk]

/-- The loop invariant: target and source together keep their sum at every key. -/
theorem value_drain (n : ℕ) (target source : ExtTreeMap K V compare) (hn : source.size = n) (j : K) :
    value (drain (· + ·) n target source) j = value target j + value source j := by
  induction n generalizing target source with
  | zero =>
    have hs : source = ∅ := ExtTreeMap.eq_empty_iff_size_eq_zero.mpr hn
    simp [drain,hs]
  | succ n ih =>
    unfold drain
    cases he : source.toList.head? with
    | none => simp [eq_empty_of_head? he]
    | some e =>
      have hv := getElem?_of_head? he
      have hm : source.contains e.1 = true := by
        rw [ExtTreeMap.contains_eq_isSome_getElem?,hv]
        rfl
      have hsize : (source.erase e.1).size = n := by
        rw [ExtTreeMap.size_erase,if_pos hm]
        omega
      have hvalue : value source e.1 = (e.2 : WithZero V) := hv
      rw [ih _ _ hsize,value_combineAt,value_erase]
      by_cases hk : e.1 = j
      · subst j
        simp [hvalue]
      · simp [hk]

@[simp] theorem value_add (m₁ m₂ : ExtTreeMap K V compare) (k : K) :
    value (m₁+m₂) k = value m₁ k + value m₂ k := value_drain _ m₁ m₂ rfl k

/-- Merging is associative and commutative, and the empty map is neutral. -/
instance instAddCommMonoid : AddCommMonoid (ExtTreeMap K V compare) where
  add_assoc a b c := ext_value fun k => by simp [add_assoc]
  zero_add a := ext_value fun k => by simp
  add_zero a := ext_value fun k => by simp
  add_comm a b := ext_value fun k => by simp [add_comm]
  nsmul := nsmulRec

/-- Adding under one key is merging the map that has this entry only. -/
theorem combineAt_eq_add_single (m : ExtTreeMap K V compare) (k : K) (v : V) :
    combineAt (· + ·) m k v = m+single k v := by
  apply ext_value
  intro j
  rw [value_combineAt,value_add,value_single]
  by_cases hk : k = j <;> simp [hk]

/-- The sum of the entries of a list at one key. -/
def entriesAt (l : List (K × V)) (j : K) : WithZero V :=
  (l.map fun e => if e.1 = j then (e.2 : WithZero V) else 0).sum

lemma value_foldl (l : List (K × V)) (m : ExtTreeMap K V compare) (j : K) :
    value (l.foldl (fun m e => combineAt (· + ·) m e.1 e.2) m) j = value m j + entriesAt l j := by
  induction l generalizing m with
  | nil => simp [entriesAt]
  | cons e l ih =>
    rw [List.foldl_cons,ih,value_combineAt]
    by_cases he : e.1 = j <;> simp [entriesAt,he,add_assoc]

omit [TransOrd K] [LawfulEqOrd K] [Ord K] in
lemma entriesAt_append (l₁ l₂ : List (K × V)) (j : K) :
    entriesAt (l₁ ++ l₂) j = entriesAt l₁ j+entriesAt l₂ j := by
  rw [entriesAt,List.map_append,List.sum_append]
  rfl

omit [TransOrd K] [LawfulEqOrd K] [Ord K] in
lemma entriesAt_flatMap {ι : Type*} (l : List ι) (f : ι → List (K × V)) (j : K) :
    entriesAt (l.flatMap f) j = (l.map fun i => entriesAt (f i) j).sum := by
  induction l with
  | nil => rfl
  | cons i l ih => rw [List.flatMap_cons,entriesAt_append,ih,List.map_cons,List.sum_cons]

omit [TransOrd K] [LawfulEqOrd K] [Ord K] in
lemma entriesAt_eq_zero {l : List (K × V)} {j : K} (h : ∀ e ∈ l, e.1 ≠ j) : entriesAt l j = 0 := by
  apply List.sum_eq_zero
  intro x hx
  obtain ⟨e,he,rfl⟩ := List.mem_map.mp hx
  exact if_neg (h e he)

omit [TransOrd K] [LawfulEqOrd K] [Ord K] in
lemma entriesAt_of_mem {l : List (K × V)} {j : K} {v : V} (hd : l.Pairwise fun a b => a.1 ≠ b.1)
    (h : (j,v) ∈ l) : entriesAt l j = (v : WithZero V) := by
  induction l with
  | nil => simp at h
  | cons e l ih =>
    obtain ⟨he,hl⟩ := List.pairwise_cons.mp hd
    rcases List.mem_cons.mp h with rfl | h
    · have hz : entriesAt l j = 0 := entriesAt_eq_zero fun b hb => (he b hb).symm
      unfold entriesAt at hz
      simp [entriesAt,hz]
    · have hne : e.1 ≠ j := he (j,v) h
      simpa [entriesAt,hne] using ih hl h

theorem entriesAt_toList (m : ExtTreeMap K V compare) (j : K) : entriesAt m.toList j = value m j := by
  have hd : m.toList.Pairwise fun a b => a.1 ≠ b.1 := by
    apply m.distinct_keys_toList.imp
    intro a b hab he
    exact hab (Std.compare_eq_iff_eq.mpr he)
  cases h : m[j]? with
  | none =>
    have hz : ∀ e ∈ m.toList, e.1 ≠ j := by
      rintro ⟨k,v⟩ he rfl
      rw [ExtTreeMap.mem_toList_iff_getElem?_eq_some,h] at he
      cases he
    exact (entriesAt_eq_zero hz).trans h.symm
  | some v =>
    have hm : (j,v) ∈ m.toList := ExtTreeMap.mem_toList_iff_getElem?_eq_some.mpr h
    exact (entriesAt_of_mem hd hm).trans h.symm

/-- Visiting every entry of the source once adds the source. -/
theorem foreachWith_eq_add {combine : V → V → V} (h : ∀ a b, combine a b = a+b)
    (target source : ExtTreeMap K V compare) : foreachWith combine target source = target+source := by
  have hc : combine = (· + ·) := by
    funext a b
    exact h a b
  apply ext_value
  intro j
  rw [hc,foreachWith,value_foldl,entriesAt_toList,value_add]

variable {P : V → Prop} {m₁ m₂ : ExtTreeMap K V compare}

omit [DecidableEq K] [LawfulEqOrd K] [TransOrd K] [Ord K] in
lemma withZero_eq_zero_of_add {a b : WithZero V} (h : a+b = 0) : a = 0 := by
  cases a with
  | zero => rfl
  | coe a => cases b <;> cases h

/-- A merge does not lose entries. -/
theorem eq_zero_of_add_eq_zero (h : m₁+m₂ = 0) : m₁ = 0 ∧ m₂ = 0 := by
  have hleft {l r : ExtTreeMap K V compare} (h : l+r = 0) : l = 0 := by
    refine ext_value fun k => ?_
    have hsum : value l k + value r k = 0 := by rw [← value_add,h,value_zero]
    rw [withZero_eq_zero_of_add hsum,value_zero]
  exact ⟨hleft h,hleft ((add_comm m₂ m₁).trans h)⟩

/-- Nor does it make up keys. -/
theorem mem_or_mem_of_mem_add {k : K} (h : k ∈ m₁+m₂) : k ∈ m₁ ∨ k ∈ m₂ := by
  by_contra hnone
  rw [not_or] at hnone
  have h₁ : value m₁ k = 0 := ExtTreeMap.getElem?_eq_none hnone.1
  have h₂ : value m₂ k = 0 := ExtTreeMap.getElem?_eq_none hnone.2
  have hsum : (m₁+m₂)[k]? = none := (value_add m₁ m₂ k).trans (by rw [h₁,h₂,add_zero]; rfl)
  rw [ExtTreeMap.mem_iff_isSome_getElem?,hsum] at h
  cases h

/-- A property that addition keeps is kept by the merge. -/
theorem AllValues.add (hP : ∀ a b, P a → P b → P (a+b)) (h₁ : AllValues P m₁) (h₂ : AllValues P m₂) :
    AllValues P (m₁+m₂) := by
  intro k v hv
  have hsum : value m₁ k + value m₂ k = (v : WithZero V) := (value_add m₁ m₂ k).symm.trans hv
  cases hv₁ : m₁[k]? with
  | none =>
    rw [show value m₁ k = 0 from hv₁,zero_add] at hsum
    exact h₂ k v hsum
  | some a =>
    rw [show value m₁ k = (a : WithZero V) from hv₁] at hsum
    cases hv₂ : m₂[k]? with
    | none =>
      rw [show value m₂ k = 0 from hv₂,add_zero] at hsum
      exact WithZero.coe_inj.mp hsum ▸ h₁ k a hv₁
    | some b =>
      rw [show value m₂ k = (b : WithZero V) from hv₂,← WithZero.coe_add] at hsum
      exact WithZero.coe_inj.mp hsum ▸ hP a b (h₁ k a hv₁) (h₂ k b hv₂)

theorem AllValues.sum (hP : ∀ a b, P a → P b → P (a+b)) {l : List (ExtTreeMap K V compare)}
    (h : ∀ m ∈ l, AllValues P m) : AllValues P l.sum := by
  induction l with
  | nil => exact allValues_zero
  | cons m l ih =>
    rw [List.forall_mem_cons] at h
    rw [List.sum_cons]
    exact h.1.add hP (ih h.2)

end Addition
end Logjam.Library.MergeMap
