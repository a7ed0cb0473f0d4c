import Logjam.Library.MergeMap

/-! A loop over the entries of a map. When its steps commute and the step of a sum is the step of the one
summand after the other, the loop over a merge is the loop over the one map after the other. -/
namespace Logjam.Library.MergeMap
open Std

variable {K V σ : Type*} [Ord K] [TransOrd K] [LawfulEqOrd K] [DecidableEq K]

omit [DecidableEq K] in
lemma nodup_toList (m : ExtTreeMap K V compare) : m.toList.Nodup :=
  m.distinct_keys_toList.imp fun hab he => hab (Std.compare_eq_iff_eq.mpr (congrArg Prod.fst he))

omit [DecidableEq K] in
lemma distinct_toList (m : ExtTreeMap K V compare) : m.toList.Pairwise fun a b => a.1 ≠ b.1 :=
  m.distinct_keys_toList.imp fun hab he => hab (Std.compare_eq_iff_eq.mpr he)

omit [DecidableEq K] in
lemma allValues_iff {P : V → Prop} {m : ExtTreeMap K V compare} : AllValues P m ↔ ∀ e ∈ m.toList,P e.2 :=
  ⟨fun h e he => h e.1 e.2 (ExtTreeMap.mem_toList_iff_getElem?_eq_some.mp he),
    fun h k v hv => h (k,v) (ExtTreeMap.mem_toList_iff_getElem?_eq_some.mpr hv)⟩

instance {P : V → Prop} [DecidablePred P] (m : ExtTreeMap K V compare) : Decidable (AllValues P m) :=
  decidable_of_iff _ allValues_iff.symm

lemma toList_insert_perm (m : ExtTreeMap K V compare) (k : K) (v : V) :
    (m.insert k v).toList.Perm ((k,v)::(m.erase k).toList) := by
  have herase (j : K) : (m.erase k)[j]? = if k = j then none else m[j]? := value_erase m k j
  have hinsert (j : K) : (m.insert k v)[j]? = if k = j then some v else m[j]? := value_insert m k j v
  have hnodup : ((k,v)::(m.erase k).toList).Nodup := by
    refine List.nodup_cons.mpr ⟨fun hmem => ?_,nodup_toList _⟩
    rw [ExtTreeMap.mem_toList_iff_getElem?_eq_some,herase,if_pos rfl] at hmem
    cases hmem
  refine (List.perm_ext_iff_of_nodup (nodup_toList _) hnodup).mpr ?_
  rintro ⟨j,w⟩
  rw [List.mem_cons,ExtTreeMap.mem_toList_iff_getElem?_eq_some,ExtTreeMap.mem_toList_iff_getElem?_eq_some,
    hinsert,herase]
  by_cases hk : k = j
  · subst hk
    simp [eq_comm]
  · simp [hk,Ne.symm hk]

lemma insert_of_getElem? {m : ExtTreeMap K V compare} {k : K} {v : V} (h : m[k]? = some v) :
    m.insert k v = m := by
  refine ext_value fun j => ?_
  rw [value_insert]
  by_cases hk : k = j
  · subst hk
    rw [if_pos rfl]
    exact h.symm
  · rw [if_neg hk]

lemma erase_of_getElem? {m : ExtTreeMap K V compare} {k : K} (h : m[k]? = none) : m.erase k = m := by
  refine ext_value fun j => ?_
  rw [value_erase]
  by_cases hk : k = j
  · subst hk
    rw [if_pos rfl]
    exact h.symm
  · rw [if_neg hk]

section Loop
variable [AddCommSemigroup V] {act : σ → K × V → σ} {P : V → Prop}

/-- Combining one entry into the map adds one step to the loop. -/
lemma foldl_toList_combineAt (hcomm : ∀ s x y,P x.2 → P y.2 → act (act s x) y = act (act s y) x)
    {m : ExtTreeMap K V compare} (hm : AllValues P m) {k : K} {v : V} (hv : P v)
    (hadd : ∀ a s,m[k]? = some a → P (a+v) ∧ act (act s (k,a)) (k,v) = act s (k,a+v)) (s : σ) :
    (combineAt (· + ·) m k v).toList.foldl act s = act (m.toList.foldl act s) (k,v) := by
  have hentry : ∀ e ∈ (m.erase k).toList,P e.2 := by
    rintro ⟨j,w⟩ he
    rw [ExtTreeMap.mem_toList_iff_getElem?_eq_some] at he
    have herase : (m.erase k)[j]? = if k = j then none else m[j]? := value_erase m k j
    rw [he] at herase
    split_ifs at herase
    exact hm j w herase.symm
  -- a step that commutes with a loop may come last
  have hlast : ∀ (l : List (K × V)) (x : K × V) s,P x.2 → (∀ e ∈ l,P e.2) →
      l.foldl act (act s x) = act (l.foldl act s) x := by
    intro l x s hx hl
    induction l generalizing s with
    | nil => rfl
    | cons e l ih =>
      rw [List.forall_mem_cons] at hl
      rw [List.foldl_cons,List.foldl_cons,hcomm s x e hx hl.1,ih _ hl.2]
  have hperm {l : List (K × V)} {x : K × V} (h : l.Perm (x::(m.erase k).toList)) (hx : P x.2) (s : σ) :
      l.foldl act s = act ((m.erase k).toList.foldl act s) x := by
    have hall : ∀ e ∈ x::(m.erase k).toList,P e.2 := by
      rw [List.forall_mem_cons]
      exact ⟨hx,hentry⟩
    have heq := h.symm.foldl_eq' (fun y hy z hz s => hcomm s y z (hall y hy) (hall z hz)) s
    rw [← heq,List.foldl_cons,hlast _ x s hx hentry]
  unfold combineAt
  cases ha : m[k]? with
  | none => rw [hperm (toList_insert_perm m k v) hv,erase_of_getElem? ha]
  | some a =>
    obtain ⟨hsum,hact⟩ := hadd a ((m.erase k).toList.foldl act s) ha
    have hself := insert_of_getElem? ha ▸ toList_insert_perm m k a
    rw [hperm (toList_insert_perm m k (a+v)) hsum,hperm hself (hm k a ha),hact]

lemma foldl_toList_foldl_combineAt
    (hcomm : ∀ s x y,P x.2 → P y.2 → act (act s x) y = act (act s y) x)
    (hP : ∀ a b,P a → P b → P (a+b)) {l : List (K × V)} (hd : l.Pairwise fun a b => a.1 ≠ b.1)
    (hl : ∀ e ∈ l,P e.2) {m : ExtTreeMap K V compare} (hm : AllValues P m)
    (hadd : ∀ e ∈ l,∀ a s,m[e.1]? = some a → act (act s (e.1,a)) e = act s (e.1,a+e.2)) (s : σ) :
    (l.foldl (fun m e => combineAt (· + ·) m e.1 e.2) m).toList.foldl act s =
      l.foldl act (m.toList.foldl act s) := by
  induction l generalizing m with
  | nil => rfl
  | cons e l ih =>
    obtain ⟨he,hd⟩ := List.pairwise_cons.mp hd
    rw [List.forall_mem_cons] at hl
    have hm' : AllValues P (combineAt (· + ·) m e.1 e.2) := by
      rw [combineAt_eq_add_single]
      exact hm.add hP (allValues_single hl.1)
    -- later entries have other keys, so that they still meet the map they started with
    have hlater : ∀ x ∈ l,∀ a s,(combineAt (· + ·) m e.1 e.2)[x.1]? = some a →
        act (act s (x.1,a)) x = act s (x.1,a+x.2) := by
      intro x hx a s ha
      rw [getElem?_combineAt,if_neg (he x hx)] at ha
      exact hadd x (List.mem_cons_of_mem _ hx) a s ha
    rw [List.foldl_cons,ih hd hl.2 hm' hlater,List.foldl_cons]
    congr 1
    refine foldl_toList_combineAt hcomm hm hl.1 (fun a s ha => ⟨hP a e.2 (hm e.1 a ha) hl.1,?_⟩) s
    exact hadd e List.mem_cons_self a s ha

theorem foldl_toList_add (hcomm : ∀ s x y,P x.2 → P y.2 → act (act s x) y = act (act s y) x)
    (hP : ∀ a b,P a → P b → P (a+b)) {m₁ m₂ : ExtTreeMap K V compare} (h₁ : AllValues P m₁)
    (h₂ : AllValues P m₂)
    (hadd : ∀ k a b s,m₁[k]? = some a → m₂[k]? = some b → act (act s (k,a)) (k,b) = act s (k,a+b))
    (s : σ) : (m₁+m₂).toList.foldl act s = m₂.toList.foldl act (m₁.toList.foldl act s) := by
  rw [← foreachWith_eq_add (fun _ _ => rfl) m₁ m₂,foreachWith]
  refine foldl_toList_foldl_combineAt hcomm hP (distinct_toList m₂) ?_ h₁ ?_ s
  · exact fun e he => h₂ e.1 e.2 (ExtTreeMap.mem_toList_iff_getElem?_eq_some.mp he)
  · exact fun e he a s ha => hadd e.1 a e.2 s ha (ExtTreeMap.mem_toList_iff_getElem?_eq_some.mp he)

end Loop
end Logjam.Library.MergeMap
