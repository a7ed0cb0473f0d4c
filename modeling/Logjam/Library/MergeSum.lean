import Logjam.Library.MergeMap

/-! Sums over entries of a map. The entries are selected by a set of indices that have distinct keys,
and an additive function says what an entry counts for. Such a sum is finite because a map is, and it
is additive in the map: a merge adds the sums. -/
namespace Logjam.Library.MergeMap
open Std

variable {K V M ι : Type*} [Ord K] [TransOrd K] [LawfulEqOrd K] [DecidableEq K] [AddCommSemigroup V]
  [AddCommMonoid M]

noncomputable def sumAlong (weight : WithZero V →+ M) (key : ι → K) (s : Set ι)
    (m : ExtTreeMap K V compare) : M := ∑ᶠ i ∈ s,weight (value m (key i))

variable {weight : WithZero V →+ M} {key : ι → K} {s : Set ι}

omit [DecidableEq K] [AddCommSemigroup V] in
lemma finite_keys (m : ExtTreeMap K V compare) : {k | value m k ≠ 0}.Finite := by
  refine (m.toList.map Prod.fst).finite_toSet.subset fun k hk => ?_
  obtain ⟨v,hv⟩ := Option.ne_none_iff_exists'.mp hk
  exact List.mem_map.mpr ⟨(k,v),ExtTreeMap.mem_toList_iff_getElem?_eq_some.mpr hv,rfl⟩

omit [DecidableEq K] in
/-- Only finitely many indices have an entry. -/
lemma finite_entries (weight : WithZero V →+ M) (hkey : Set.InjOn key s) (m : ExtTreeMap K V compare) :
    (s ∩ Function.support fun i => weight (value m (key i))).Finite := by
  refine Set.Finite.of_finite_image ((finite_keys m).subset ?_) (hkey.mono Set.inter_subset_left)
  rintro _ ⟨i,⟨_,hi⟩,rfl⟩ hzero
  exact hi (by simp only [hzero,map_zero])

theorem sumAlong_add (weight : WithZero V →+ M) (hkey : Set.InjOn key s)
    (m₁ m₂ : ExtTreeMap K V compare) :
    sumAlong weight key s (m₁+m₂) = sumAlong weight key s m₁+sumAlong weight key s m₂ := by
  simp only [sumAlong,value_add,map_add]
  exact finsum_mem_add_distrib' (finite_entries weight hkey m₁) (finite_entries weight hkey m₂)

omit [LawfulEqOrd K] [DecidableEq K] in
@[simp] theorem sumAlong_empty : sumAlong weight key s (∅ : ExtTreeMap K V compare) = 0 := by
  simp only [sumAlong,value_empty,map_zero,finsum_mem_zero]

/-- An entry counts where an index has its key. -/
theorem sumAlong_single_of_mem (weight : WithZero V →+ M) (hkey : Set.InjOn key s) {i : ι} (hi : i ∈ s)
    (v : V) : sumAlong weight key s (single (key i) v) = weight v := by
  rw [sumAlong,finsum_mem_def,finsum_eq_single _ i]
  · rw [Set.indicator_of_mem hi,value_single,if_pos rfl]
  · intro j hj
    by_cases hs : j ∈ s
    · rw [Set.indicator_of_mem hs,value_single,if_neg fun h => hj (hkey hs hi h.symm),map_zero]
    · exact Set.indicator_of_notMem hs _

theorem sumAlong_single_of_notMem (weight : WithZero V →+ M) {k : K} (hk : ∀ i ∈ s,key i ≠ k) (v : V) :
    sumAlong weight key s (single k v) = 0 := by
  rw [sumAlong]
  refine (finsum_mem_congr rfl fun i hi => ?_).trans (finsum_mem_zero s)
  rw [value_single,if_neg (hk i hi).symm,map_zero]

/-! All entries at once. -/

def sumValues (f : V → M) (m : ExtTreeMap K V compare) : M := (m.toList.map fun e => f e.2).sum

omit [DecidableEq K] in
lemma sumAlong_univ (weight : WithZero V →+ M) (m : ExtTreeMap K V compare) :
    sumAlong weight id Set.univ m = sumValues (fun v : V => weight (v : WithZero V)) m := by
  classical
  have hnodup : (m.toList.map Prod.fst).Nodup := by
    rw [List.nodup_iff_pairwise_ne,List.pairwise_map]
    exact m.distinct_keys_toList.imp fun hab he => hab (Std.compare_eq_iff_eq.mpr he)
  have hsupport : (Function.support fun k => weight (value m k)) ⊆ (m.toList.map Prod.fst).toFinset := by
    intro k hk
    rw [List.coe_toFinset]
    obtain ⟨v,hv⟩ := Option.ne_none_iff_exists'.mp fun hnone : value m k = 0 => hk (by simp only [hnone,map_zero])
    exact List.mem_map.mpr ⟨(k,v),ExtTreeMap.mem_toList_iff_getElem?_eq_some.mpr hv,rfl⟩
  simp only [sumAlong,id_eq,finsum_mem_univ]
  rw [finsum_eq_sum_of_support_subset _ hsupport,List.sum_toFinset _ hnodup,List.map_map,sumValues]
  refine congrArg List.sum (List.map_congr_left fun e he => ?_)
  exact congrArg weight (ExtTreeMap.mem_toList_iff_getElem?_eq_some.mp he)

omit [DecidableEq K] in
lemma sumValues_eq_sumAlong {f : V → M} (hf : ∀ a b, f (a+b) = f a+f b) (m : ExtTreeMap K V compare) :
    sumValues f m = sumAlong (WithZero.lift ⟨f,hf⟩) id Set.univ m :=
  (sumAlong_univ (WithZero.lift ⟨f,hf⟩) m).symm

/-- A merge adds the sums. -/
theorem sumValues_add {f : V → M} (hf : ∀ a b, f (a+b) = f a+f b) (m₁ m₂ : ExtTreeMap K V compare) :
    sumValues f (m₁+m₂) = sumValues f m₁+sumValues f m₂ := by
  simp only [sumValues_eq_sumAlong hf]
  exact sumAlong_add _ (Set.injOn_id _) m₁ m₂

theorem sumValues_single {f : V → M} (hf : ∀ a b, f (a+b) = f a+f b) (k : K) (v : V) :
    sumValues f (single k v) = f v := by
  rw [sumValues_eq_sumAlong hf]
  exact sumAlong_single_of_mem _ (Set.injOn_id _) (Set.mem_univ k) v

omit [LawfulEqOrd K] [DecidableEq K] [AddCommSemigroup V] in
@[simp] theorem sumValues_zero (f : V → M) : sumValues f (0 : ExtTreeMap K V compare) = 0 := by
  have hempty : (0 : ExtTreeMap K V compare).toList = [] :=
    List.length_eq_zero_iff.mp (ExtTreeMap.length_toList.trans ExtTreeMap.size_empty)
  rw [sumValues,hempty]
  rfl

end Logjam.Library.MergeMap
