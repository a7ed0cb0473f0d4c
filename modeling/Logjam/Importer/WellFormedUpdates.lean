import Logjam.Importer.ForwardedRows

/-! MongoDB refuses an update with an empty $inc, and one that names a field twice. None of the updates that
the aggregates of any messages lead to is of that kind. -/
namespace Logjam.Importer
open Logjam.Library Logjam.Library.MergeMap

variable {n : ℕ}

structure StatsUpdate.WellFormed (w : StatsUpdate) : Prop where
  nonempty : w.update.incs ≠ []
  distinct : ((w.update.incs ++ w.update.maxs).map Prod.fst).Nodup

/-! Every increments object counts something. -/

structure Increments.Uncounted (incs : Increments n) : Prop where
  backend : incs.backendRequestCount = 0
  page : incs.pageRequestCount = 0
  ajax : incs.ajaxRequestCount = 0
  others : incs.others = 0

lemma Increments.Uncounted.left {a b : Increments n} (h : (a+b).Uncounted) : a.Uncounted where
  backend := (Nat.add_eq_zero_iff.mp h.backend).1
  page := (Nat.add_eq_zero_iff.mp h.page).1
  ajax := (Nat.add_eq_zero_iff.mp h.ajax).1
  others := (eq_zero_of_add_eq_zero ((add_others a b).symm.trans h.others)).1

lemma Measures.counted {env : Env n} {clock : Clock} {request : JObject} {incs : Increments n}
    (h : Measures env clock request incs) : ¬incs.Uncounted := by
  intro hzero
  have hone := h.requestCount_eq clock
  rw [if_pos rfl] at hone
  cases clock with
  | total => exact absurd (hzero.backend.symm.trans hone) (by decide)
  | page => exact absurd (hzero.page.symm.trans hone) (by decide)
  | ajax => exact absurd (hzero.ajax.symm.trans hone) (by decide)

lemma Producible.counted {env : Env n} {incs : Increments n} (h : Producible env incs) : ¬incs.Uncounted := by
  induction h with
  | backend h => exact (backendIncrements_measures _ _ _ _ _ _ _ _ h).counted
  | page request totalTime timings => exact (pageIncrements_measures _ _ _ _).counted
  | ajax request totalTime => exact (ajaxIncrements_measures _ _ _).counted
  | jsException jsException =>
    intro hzero
    have hentry : (jsExceptionIncrements jsException : Increments n).others =
        single (lit "js_exceptions." ++ uriReplaceDotsAndDollars jsException) 1 := rfl
    have hvalue := congrArg (value · (lit "js_exceptions." ++ uriReplaceDotsAndDollars jsException))
      (hentry.symm.trans hzero.others)
    simp only [value_single,value_zero] at hvalue
    exact WithZero.coe_ne_zero hvalue
  | add _ _ iha _ => exact fun hzero => iha hzero.left

lemma appendCount_eq_nil {name : Bytes} {count : ℕ} (h : appendCount name count = []) : count = 0 := by
  by_contra hcount
  rw [appendCount,if_pos hcount] at h
  cases h

lemma incrementsToBson_incs_ne_nil {incs : Increments n} (h : ¬incs.Uncounted) (res : Resources n) :
    (incrementsToBson res incs).incs ≠ [] := by
  intro hnil
  refine h ?_
  simp only [incrementsToBson,appendCounts,List.append_eq_nil_iff] at hnil
  obtain ⟨⟨hbackend,hpage,hajax,-⟩,-,hothers⟩ := hnil
  refine ⟨appendCount_eq_nil hbackend,appendCount_eq_nil hpage,appendCount_eq_nil hajax,?_⟩
  have htoList : incs.others.toList = [] := List.map_eq_nil_iff.mp hothers
  exact eq_empty_of_head? (htoList ▸ rfl)

/-! Fields. -/

lemma map_appendCount_sublist (name : Bytes) (count : ℕ) : ((appendCount name count).map Prod.fst).Sublist [name] := by
  unfold appendCount
  split
  · exact List.Sublist.refl _
  · exact List.nil_sublist _

lemma map_flatMap_sublist {ι : Type} {l : List ι} {f : ι → List (Bytes × ℚ)} {g : ι → List Bytes}
    (h : ∀ i,((f i).map Prod.fst).Sublist (g i)) : ((l.flatMap f).map Prod.fst).Sublist (l.flatMap g) := by
  rw [List.map_flatMap]
  induction l with
  | nil => exact List.Sublist.refl _
  | cons i l ih =>
    rw [List.flatMap_cons,List.flatMap_cons]
    exact (h i).append ih

section Fields
variable (res : Resources n)

/-- All fields an update of increments may name, once each. -/
def incrementFields (incs : Increments n) : List Bytes :=
  countFields ++ ((List.finRange n).flatMap fun i => [res.intToResource i,res.intToResourceSq i]) ++
    incs.others.keys ++ (List.finRange n).flatMap fun i => [res.intToResourceMax i]

lemma map_incrementsToBson_sublist (incs : Increments n) :
    (((incrementsToBson res incs).incs ++ (incrementsToBson res incs).maxs).map Prod.fst).Sublist
      (incrementFields res incs) := by
  have hcounts : ((appendCounts incs).map Prod.fst).Sublist countFields := by
    simp only [appendCounts,List.map_append]
    exact (map_appendCount_sublist _ _).append ((map_appendCount_sublist _ _).append
      ((map_appendCount_sublist _ _).append (map_appendCount_sublist _ _)))
  have hmetrics (i : Fin n) : ((appendMetric res incs i).map Prod.fst).Sublist
      [res.intToResource i,res.intToResourceSq i] := by
    simp only [appendMetric]
    split
    · exact List.Sublist.refl _
    · exact List.nil_sublist _
  have hmaxs (i : Fin n) : ((appendMax res incs i).map Prod.fst).Sublist [res.intToResourceMax i] := by
    simp only [appendMax]
    split
    · exact List.Sublist.refl _
    · exact List.nil_sublist _
  have hothers : (appendOthers incs).map Prod.fst = incs.others.keys := by
    rw [appendOthers,List.map_map,← Std.ExtTreeMap.map_fst_toList_eq_keys]
    rfl
  simp only [incrementsToBson,List.map_append,incrementFields,List.append_assoc,hothers]
  exact hcounts.append ((map_flatMap_sublist hmetrics).append
    ((List.Sublist.refl _).append (map_flatMap_sublist hmaxs)))

lemma mem_countFields_getLast {name : Bytes} (h : name ∈ countFields) : name.getLast? = some 116 := by
  revert name
  decide

lemma notMem_dot_countFields {name : Bytes} (h : name ∈ countFields) : (46 : UInt8) ∉ name := by
  revert name
  decide

lemma getLast_intToResourceSq (i : Fin n) : (res.intToResourceSq i).getLast? = some 113 := by
  rw [Resources.intToResourceSq,List.getLast?_append,show (lit "_sq").getLast? = some 113 by decide]
  rfl

lemma notMem_dot_sq (i : Fin n) : (46 : UInt8) ∉ res.intToResourceSq i := by
  intro h
  rcases List.mem_append.mp h with h | h
  · exact res.no_dot i h
  · exact absurd h (by decide)

lemma nodup_metricFields : ((List.finRange n).flatMap fun i => [res.intToResource i,res.intToResourceSq i]).Nodup := by
  refine List.nodup_flatMap.mpr ⟨fun i _ => ?_,?_⟩
  · exact List.nodup_cons.mpr ⟨fun h => res.ne_sq i i (List.mem_singleton.mp h),List.nodup_singleton _⟩
  · refine (List.nodup_finRange n).imp ?_
    intro i j hij
    have hsq := (intToResourceSq_injective res).ne hij
    have hname := res.injective.ne hij
    simp only [Function.onFun,List.disjoint_cons_left,List.mem_cons,List.not_mem_nil,or_false,not_or,
      List.disjoint_nil_left,and_true]
    exact ⟨⟨hname,res.ne_sq i j⟩,(res.ne_sq j i).symm,hsq⟩

theorem nodup_incrementFields {incs : Increments n} (h : incs.Sound) : (incrementFields res incs).Nodup := by
  have hmax {name : Bytes} (hmem : name ∈ (List.finRange n).flatMap fun i => [res.intToResourceMax i]) :
      ∃ i,res.intToResourceMax i = name := by
    obtain ⟨i,-,hi⟩ := List.mem_flatMap.mp hmem
    exact ⟨i,(List.mem_singleton.mp hi).symm⟩
  have hmetric {name : Bytes}
      (hmem : name ∈ (List.finRange n).flatMap fun i => [res.intToResource i,res.intToResourceSq i]) :
      ∃ i,res.intToResource i = name ∨ res.intToResourceSq i = name := by
    obtain ⟨i,-,hi⟩ := List.mem_flatMap.mp hmem
    rcases List.mem_pair.mp hi with rfl | rfl
    · exact ⟨i,.inl rfl⟩
    · exact ⟨i,.inr rfl⟩
  have hkey {name : Bytes} (hmem : name ∈ incs.others.keys) : (46 : UInt8) ∈ name :=
    h.dotted name (Std.ExtTreeMap.mem_keys.mp hmem)
  have hmaxs : ((List.finRange n).flatMap fun i => [res.intToResourceMax i]).Nodup := by
    rw [← List.map_eq_flatMap]
    exact (List.nodup_finRange n).map (intToResourceMax_injective res)
  have hkeys : incs.others.keys.Nodup := by
    rw [← Std.ExtTreeMap.map_fst_toList_eq_keys,List.nodup_iff_pairwise_ne,List.pairwise_map]
    exact distinct_toList incs.others
  -- counters end differently from squares and maxima, and dynamic counters have a dot
  have hcountMetric : List.Disjoint countFields
      ((List.finRange n).flatMap fun i => [res.intToResource i,res.intToResourceSq i]) := by
    intro name hname hmem
    obtain ⟨i,rfl | rfl⟩ := hmetric hmem
    · exact res.ne_count i hname
    · have hlast := (mem_countFields_getLast hname).symm.trans (getLast_intToResourceSq res i)
      exact absurd (Option.some.inj hlast) (by decide)
  have hstaticKey : List.Disjoint (countFields ++
      (List.finRange n).flatMap fun i => [res.intToResource i,res.intToResourceSq i]) incs.others.keys := by
    intro name hname hmem
    rcases List.mem_append.mp hname with hname | hname
    · exact notMem_dot_countFields hname (hkey hmem)
    · obtain ⟨i,rfl | rfl⟩ := hmetric hname
      · exact res.no_dot i (hkey hmem)
      · exact notMem_dot_sq res i (hkey hmem)
  unfold incrementFields
  refine List.nodup_append'.mpr ⟨List.nodup_append'.mpr ⟨List.nodup_append'.mpr
    ⟨by decide,nodup_metricFields res,hcountMetric⟩,hkeys,hstaticKey⟩,hmaxs,?_⟩
  intro name hname hmem
  obtain ⟨j,rfl⟩ := hmax hmem
  rcases List.mem_append.mp hname with hname | hname
  · rcases List.mem_append.mp hname with hname | hname
    · exact notMem_countFields_max res j hname
    · obtain ⟨i,hi | hi⟩ := hmetric hname
      · exact res.ne_max i j hi
      · exact intToResourceSq_ne_max res i j hi
  · exact notMem_dot_max res j (hkey hname)

end Fields

/-! The five kinds of updates. -/

/-- The entry was decoded, to a well formed update. -/
def WellFormedResult (r : Except Fault StatsUpdate) : Prop := ∃ w,r = .ok w ∧ w.WellFormed

section Updates
variable {env : Env n} (dbName : Bytes) {key : Bytes}

lemma wellFormed_increments {incs : Increments n} (h : Producible env incs) (address : Address) :
    StatsUpdate.WellFormed ⟨address,incrementsToBson env.res incs⟩ where
  nonempty := incrementsToBson_incs_ne_nil h.counted env.res
  distinct := (nodup_incrementFields env.res h.sound).sublist (map_incrementsToBson_sublist env.res incs)

/-- Counters of distinct fields, one of which is not zero. -/
lemma wellFormed_counts {ι : Type} {l : List ι} {name : ι → Bytes} {row : ι → ℕ} (hl : (l.map name).Nodup)
    {i : ι} (hi : i ∈ l) (hrow : row i ≠ 0) (address : Address) :
    StatsUpdate.WellFormed ⟨address,⟨l.flatMap fun i => appendCount (name i) (row i),[]⟩⟩ where
  nonempty hnil := hrow (appendCount_eq_nil (List.flatMap_eq_nil_iff.mp hnil i hi))
  distinct := by
    rw [List.append_nil]
    rw [List.map_eq_flatMap] at hl
    exact List.Nodup.sublist (map_flatMap_sublist fun i => map_appendCount_sublist (name i) (row i)) hl

lemma totalsAddIncrements_wellFormed {incs : Increments n} (h : Producible env incs) :
    WellFormedResult (totalsAddIncrements env.res dbName key incs) := ⟨_,rfl,wellFormed_increments h _⟩

lemma minutesAddIncrements_wellFormed (hkey : ∃ s,minutesSelector key = .ok s) {incs : Increments n}
    (h : Producible env incs) : WellFormedResult (minutesAddIncrements env.res dbName key incs) := by
  obtain ⟨s,hs⟩ := hkey
  simp only [minutesAddIncrements,hs]
  exact ⟨_,rfl,wellFormed_increments h _⟩

lemma quantsAddQuants_wellFormed (hkey : ∃ s,quantsSelector key = .ok s) {row : Fin n → ℕ} (h : row ≠ 0) :
    WellFormedResult (quantsAddQuants env.res dbName key row) := by
  obtain ⟨s,hs⟩ := hkey
  obtain ⟨i,hi⟩ := Function.ne_iff.mp h
  simp only [quantsAddQuants,hs]
  refine ⟨_,rfl,wellFormed_counts ((List.nodup_finRange n).map env.res.injective) (List.mem_finRange i) hi _⟩

lemma decimal_injective : Function.Injective decimal := by
  intro a b h
  have hread := leadingDigits_decimal a
  rw [h,leadingDigits_decimal] at hread
  exact hread.symm

lemma histogramsAddHistograms_wellFormed
    (hkey : ∃ s,histogramsSelector key = .ok s ∧ s.resource.length+3 < 256) {row : Fin histogramSize → ℕ}
    (h : row ≠ 0) : WellFormedResult (histogramsAddHistograms dbName key row) := by
  obtain ⟨s,hs,hshort⟩ := hkey
  obtain ⟨i,hi⟩ := Function.ne_iff.mp h
  rw [histogramsAddHistograms_eq dbName hs hshort]
  refine ⟨_,rfl,wellFormed_counts ?_ (List.mem_finRange i) hi _⟩
  refine (List.nodup_finRange histogramSize).map fun a b hab => ?_
  exact Fin.ext (decimal_injective (List.append_cancel_left hab))

lemma agentsAddAgent_wellFormed (stats : UserAgentStats) : WellFormedResult (agentsAddAgent dbName key stats) := by
  refine ⟨_,rfl,⟨by simp,?_⟩⟩
  have hreason (r : FeMsgDropReason × Bytes) : ((appendReason stats r).map Prod.fst).Sublist [r.2] := by
    simp only [appendReason]
    split
    · exact List.Sublist.refl _
    · exact List.nil_sublist _
  have hall := (List.Sublist.refl [lit "backend",lit "frontend",lit "dropped"]).append
    (map_flatMap_sublist (l := dropReasonFields) hreason)
  rw [List.append_nil,List.map_append]
  exact List.Nodup.sublist hall (by decide)

theorem processorUpdates_wellFormed {p : Processor n} (h : p.Forwarded env) :
    ∀ r ∈ processorUpdates env.res dbName p,WellFormedResult r := by
  rw [processorUpdates_eq]
  simp only [List.forall_mem_append]
  refine ⟨?_,?_,?_,?_,?_⟩
  · exact forall_updateCollection fun key incs hv =>
      totalsAddIncrements_wellFormed dbName (h.stored.totals key incs hv)
  · exact forall_updateCollection fun key incs hv => minutesAddIncrements_wellFormed dbName
      (h.filed.decodable.minutes key (mem_of_getElem? hv)) (h.stored.minutes key incs hv)
  · exact forall_updateCollection fun key row hv => quantsAddQuants_wellFormed dbName
      (h.filed.decodable.quants key (mem_of_getElem? hv)) (h.filed.quants key row hv)
  · exact forall_updateCollection fun key row hv => histogramsAddHistograms_wellFormed dbName
      (h.filed.decodable.histograms key (mem_of_getElem? hv)) (h.filed.histograms key row hv)
  · exact forall_updateCollection fun key stats _ => agentsAddAgent_wellFormed dbName stats

end Updates
end Logjam.Importer
