import Logjam.Importer.Producible

/-! The updater turns increments into an update of a MongoDB document. A document maps field paths
to numbers; $inc reads a missing field as zero, and $max sets a missing field. -/
namespace Logjam.Importer
open Logjam.Library.MergeMap

variable {n : ℕ}

abbrev Document := ZHash ℚ

structure UpdateDocument where
  incs : List (Bytes × ℚ)
  maxs : List (Bytes × ℚ)

/-- $inc and $max as MongoDB documents them, on exact numbers. A field that is missing is set. -/
def applyUpdate (document : Document) (update : UpdateDocument) : Document :=
  let incremented := update.incs.foldl (fun d e => combineAt (· + ·) d e.1 e.2) document
  update.maxs.foldl (fun d e => combineAt max d e.1 e.2) incremented

def appendCount (name : Bytes) (count : ℕ) : List (Bytes × ℚ) :=
  if count ≠ 0 then [(name,(toInt32 count : ℚ))] else []

def appendMetric (res : Resources n) (incs : Increments n) (i : Fin n) : List (Bytes × ℚ) :=
  let m := incs.metrics i
  if m.val > 0 then [(res.intToResource i,m.val),(res.intToResourceSq i,m.valSquared)] else []

def appendMax (res : Resources n) (incs : Increments n) (i : Fin n) : List (Bytes × ℚ) :=
  let m := incs.metrics i
  if m.val > 0 then [(res.intToResourceMax i,m.valMax)] else []

/-- The dynamic counters are JSON integers, which json_object_get_int cuts off at the largest int. -/
def appendOthers (incs : Increments n) : List (Bytes × ℚ) :=
  incs.others.toList.map fun e => (e.1,(min e.2 (2^31-1) : ℕ))

def appendCounts (incs : Increments n) : List (Bytes × ℚ) :=
  appendCount (lit "count") incs.backendRequestCount ++
    (appendCount (lit "page_count") incs.pageRequestCount ++
      (appendCount (lit "ajax_count") incs.ajaxRequestCount ++
        appendCount (lit "frontend_count") (incs.pageRequestCount+incs.ajaxRequestCount)))

def incrementsToBson (res : Resources n) (incs : Increments n) : UpdateDocument where
  incs := appendCounts incs ++ ((List.finRange n).flatMap (appendMetric res incs) ++ appendOthers incs)
  maxs := (List.finRange n).flatMap (appendMax res incs)

/-- The counters fit an int32. -/
structure CountsFit (incs : Increments n) : Prop where
  backend : incs.backendRequestCount < 2^31
  frontend : incs.pageRequestCount+incs.ajaxRequestCount < 2^31
  others : ∀ (key : Bytes) count, incs.others[key]? = some count → count < 2^31

instance (incs : Increments n) : Decidable (CountsFit incs) :=
  decidable_of_iff (incs.backendRequestCount < 2^31 ∧
    incs.pageRequestCount+incs.ajaxRequestCount < 2^31 ∧ ∀ e ∈ incs.others.toList, e.2 < 2^31)
    ⟨fun h => ⟨h.1,h.2.1,fun key count hc =>
      h.2.2 (key,count) (Std.ExtTreeMap.mem_toList_iff_getElem?_eq_some.mpr hc)⟩,
    fun h => ⟨h.backend,h.frontend,fun e he =>
      h.others e.1 e.2 (Std.ExtTreeMap.mem_toList_iff_getElem?_eq_some.mp he)⟩⟩

/-- For every metric the two batches either both have it with a positive sum or both without, or
the one without has only seen zeros of it. -/
def SignsAgree (a b : Increments n) : Prop :=
  ∀ i, (0 < (a.metrics i).val ∧ 0 < (b.metrics i).val) ∨ ((a.metrics i).val ≤ 0 ∧ (b.metrics i).val ≤ 0) ∨
    (0 < (a.metrics i).val ∧ (b.metrics i).valSquared = 0) ∨
    (0 < (b.metrics i).val ∧ (a.metrics i).valSquared = 0)

/-! Counters: what the updates of two batches add up to. -/

lemma entriesAt_appendCount {name : Bytes} {count : ℕ} (h : count < 2^31) (f : Bytes) :
    entriesAt (appendCount name count) f =
      if name = f ∧ count ≠ 0 then ((count : ℚ) : WithZero ℚ) else 0 := by
  unfold appendCount
  by_cases hc : count = 0
  · simp [hc,entriesAt]
  · simp [hc,entriesAt,toInt32_of_lt h]

lemma entriesAt_appendCount_add {name : Bytes} {x y : ℕ} (h : x+y < 2^31) (f : Bytes) :
    entriesAt (appendCount name (x+y)) f =
      entriesAt (appendCount name x) f+entriesAt (appendCount name y) f := by
  rw [entriesAt_appendCount h,entriesAt_appendCount (by omega),entriesAt_appendCount (by omega)]
  by_cases hn : name = f
  · by_cases hx : x = 0
    · simp [hx]
    · by_cases hy : y = 0
      · simp [hy]
      · simp [hn,hx,hy]
  · simp [hn]

lemma entriesAt_appendCounts_add {a b : Increments n} (h : CountsFit (a+b)) (f : Bytes) :
    entriesAt (appendCounts (a+b)) f = entriesAt (appendCounts a) f+entriesAt (appendCounts b) f := by
  have hb : a.backendRequestCount+b.backendRequestCount < 2^31 := h.backend
  have hf : a.pageRequestCount+b.pageRequestCount+(a.ajaxRequestCount+b.ajaxRequestCount) < 2^31 := h.frontend
  have hsum : a.pageRequestCount+b.pageRequestCount+(a.ajaxRequestCount+b.ajaxRequestCount) =
      a.pageRequestCount+a.ajaxRequestCount+(b.pageRequestCount+b.ajaxRequestCount) := by omega
  simp only [appendCounts,entriesAt_append,Increments.add_backendRequestCount,
    Increments.add_pageRequestCount,Increments.add_ajaxRequestCount]
  rw [entriesAt_appendCount_add hb,entriesAt_appendCount_add (by omega),
    entriesAt_appendCount_add (by omega),hsum,entriesAt_appendCount_add (by omega)]
  ac_rfl

def castCount (x : WithZero ℕ) : WithZero ℚ := Option.map (fun c : ℕ => (c : ℚ)) x

lemma castCount_zero : castCount 0 = 0 := rfl

lemma castCount_add (x y : WithZero ℕ) : castCount (x+y) = castCount x+castCount y := by
  induction x using WithZero.recZeroCoe with
  | zero => simp [castCount_zero]
  | coe a =>
    induction y using WithZero.recZeroCoe with
    | zero => simp [castCount_zero]
    | coe b => exact congrArg (fun q : ℚ => (q : WithZero ℚ)) (Nat.cast_add a b)

/-- Dynamic counters are read off the map, as long as they fit. -/
lemma entriesAt_appendOthers {incs : Increments n}
    (h : ∀ (key : Bytes) count, incs.others[key]? = some count → count < 2^31) (f : Bytes) :
    entriesAt (appendOthers incs) f = castCount (value incs.others f) := by
  have hd : (appendOthers incs).Pairwise fun a b => a.1 ≠ b.1 := by
    apply List.pairwise_map.mpr
    apply incs.others.distinct_keys_toList.imp
    intro a b hab he
    exact hab (Std.compare_eq_iff_eq.mpr he)
  cases hv : incs.others[f]? with
  | none =>
    rw [show value incs.others f = 0 from hv,castCount_zero]
    apply entriesAt_eq_zero
    intro e he hef
    obtain ⟨⟨k,c⟩,hk,rfl⟩ := List.mem_map.mp he
    have hmem := Std.ExtTreeMap.mem_toList_iff_getElem?_eq_some.mp hk
    rw [show k = f from hef,hv] at hmem
    cases hmem
  | some c =>
    have hc := h f c hv
    have hmin : min c (2^31-1) = c := min_eq_left (by omega)
    rw [show value incs.others f = WithZero.coe c from hv]
    apply entriesAt_of_mem hd
    apply List.mem_map.mpr
    exact ⟨(f,c),Std.ExtTreeMap.mem_toList_iff_getElem?_eq_some.mpr hv,by rw [hmin]⟩

lemma CountsFit.left {a b : Increments n} (h : CountsFit (a+b)) :
    ∀ (key : Bytes) count, a.others[key]? = some count → count < 2^31 := by
  intro key count hc
  have hva : value a.others key = WithZero.coe count := hc
  have hv := value_add a.others b.others key
  rw [hva] at hv
  cases hb : b.others[key]? with
  | none =>
    rw [show value b.others key = 0 from hb,add_zero] at hv
    exact h.others key count (by rw [Increments.add_others]; exact hv)
  | some d =>
    rw [show value b.others key = WithZero.coe d from hb] at hv
    have hlt := h.others key (count+d) (by rw [Increments.add_others]; exact hv)
    omega

lemma CountsFit.comm {a b : Increments n} (h : CountsFit (a+b)) : CountsFit (b+a) := add_comm a b ▸ h

lemma entriesAt_appendOthers_add {a b : Increments n} (h : CountsFit (a+b)) (f : Bytes) :
    entriesAt (appendOthers (a+b)) f = entriesAt (appendOthers a) f+entriesAt (appendOthers b) f := by
  rw [entriesAt_appendOthers h.others,entriesAt_appendOthers h.left,entriesAt_appendOthers h.comm.left,
    Increments.add_others,value_add,castCount_add]

/-! Metrics: where the filter by sign and the sum of two batches agree. -/

/-- What the update of one metric adds to a field. -/
def metricAt (m : MetricPair) (name square f : Bytes) : WithZero ℚ :=
  if 0 < m.val then
    (if name = f then (m.val : WithZero ℚ) else 0)+(if square = f then (m.valSquared : WithZero ℚ) else 0)
  else 0

lemma entriesAt_appendMetric (res : Resources n) (incs : Increments n) (i : Fin n) (f : Bytes) :
    entriesAt (appendMetric res incs i) f =
      metricAt (incs.metrics i) (res.intToResource i) (res.intToResourceSq i) f := by
  simp only [appendMetric,metricAt,gt_iff_lt]
  split
  · simp [entriesAt]
  · rfl

lemma metricAt_add_of_pos {x y : MetricPair} (hx : 0 < x.val) (hy : 0 < y.val) (name square f : Bytes) :
    metricAt (x+y) name square f = metricAt x name square f+metricAt y name square f := by
  have hxy : 0 < (x+y).val := add_pos hx hy
  rw [metricAt,metricAt,metricAt,if_pos hx,if_pos hy,if_pos hxy,MetricPair.add_val,
    MetricPair.add_valSquared]
  by_cases hn : name = f
  · by_cases hs : square = f
    · simp only [hn,hs,if_true,WithZero.coe_add]
      ac_rfl
    · simp [hn,hs,WithZero.coe_add]
  · by_cases hs : square = f
    · simp [hn,hs,WithZero.coe_add]
    · simp [hn,hs]

lemma metricAt_of_nonpos {m : MetricPair} (h : m.val ≤ 0) (name square f : Bytes) :
    metricAt m name square f = 0 := if_neg (not_lt.mpr h)

lemma metricAt_add_zero {x y : MetricPair} (hy : y.Sound) (hz : y.valSquared = 0) (name square f : Bytes) :
    metricAt (x+y) name square f = metricAt x name square f := by
  have hval := (hy.eq_zero hz).1
  have hxy : (x+y).val = x.val := by rw [MetricPair.add_val,hval,add_zero]
  have hsq : (x+y).valSquared = x.valSquared := by rw [MetricPair.add_valSquared,hz,add_zero]
  rw [metricAt,metricAt,hxy,hsq]

lemma entriesAt_appendMetric_add {a b : Increments n} (ha : a.Sound) (hb : b.Sound)
    (h : SignsAgree a b) (res : Resources n) (i : Fin n) (f : Bytes) :
    entriesAt (appendMetric res (a+b) i) f =
      entriesAt (appendMetric res a i) f+entriesAt (appendMetric res b i) f := by
  rw [entriesAt_appendMetric,entriesAt_appendMetric,entriesAt_appendMetric,Increments.add_metrics]
  obtain ⟨hpa,hpb⟩ | ⟨hna,hnb⟩ | ⟨hpa,hzb⟩ | ⟨hpb,hza⟩ := h i
  · exact metricAt_add_of_pos hpa hpb _ _ _
  · have hsum : (a.metrics i+b.metrics i).val ≤ 0 := add_nonpos hna hnb
    rw [metricAt_of_nonpos hna,metricAt_of_nonpos hnb,metricAt_of_nonpos hsum,add_zero]
  · rw [metricAt_add_zero (hb.metrics i) hzb,
      metricAt_of_nonpos (((hb.metrics i).eq_zero hzb).1).le,add_zero]
  · rw [add_comm (a.metrics i),metricAt_add_zero (ha.metrics i) hza,
      metricAt_of_nonpos (((ha.metrics i).eq_zero hza).1).le,zero_add]

lemma entriesAt_incs (res : Resources n) (incs : Increments n) (f : Bytes) :
    entriesAt (incrementsToBson res incs).incs f = entriesAt (appendCounts incs) f+
      (((List.finRange n).map fun i => entriesAt (appendMetric res incs i) f).sum+
        entriesAt (appendOthers incs) f) := by
  rw [incrementsToBson,entriesAt_append,entriesAt_append,entriesAt_flatMap]

lemma entriesAt_incs_add {a b : Increments n} (ha : a.Sound) (hb : b.Sound) (h : SignsAgree a b)
    (hfit : CountsFit (a+b)) (res : Resources n) (f : Bytes) :
    entriesAt (incrementsToBson res (a+b)).incs f =
      entriesAt (incrementsToBson res a).incs f+entriesAt (incrementsToBson res b).incs f := by
  have hmetrics : ((List.finRange n).map fun i => entriesAt (appendMetric res (a+b) i) f).sum =
      ((List.finRange n).map fun i => entriesAt (appendMetric res a i) f).sum+
        ((List.finRange n).map fun i => entriesAt (appendMetric res b i) f).sum := by
    rw [← List.sum_map_add]
    congr 1
    exact List.map_congr_left fun i _ => entriesAt_appendMetric_add ha hb h res i f
  rw [entriesAt_incs,entriesAt_incs,entriesAt_incs,entriesAt_appendCounts_add hfit,hmetrics,
    entriesAt_appendOthers_add hfit]
  ac_rfl

/-! Fields of $max are never fields of $inc: their names end differently or have no dot. -/

section Fields
variable (res : Resources n)

lemma intToResourceMax_injective : Function.Injective res.intToResourceMax := by
  intro i j h
  exact res.injective (List.append_cancel_right h)

lemma intToResourceSq_injective : Function.Injective res.intToResourceSq := by
  intro i j h
  exact res.injective (List.append_cancel_right h)

lemma intToResourceSq_ne_max (i j : Fin n) : res.intToResourceSq i ≠ res.intToResourceMax j := by
  intro h
  have hlast := congrArg List.getLast? h
  rw [Resources.intToResourceSq,Resources.intToResourceMax,List.getLast?_append,List.getLast?_append,
    show (lit "_sq").getLast? = some 113 by decide,show (lit "_max").getLast? = some 120 by decide] at hlast
  exact absurd (Option.some.inj hlast) (by decide)

lemma notMem_countFields_max (i : Fin n) : res.intToResourceMax i ∉ countFields := by
  intro h
  have hlast : ∀ name ∈ countFields, name.getLast? = some 116 := by decide
  have hc := hlast _ h
  rw [Resources.intToResourceMax,List.getLast?_append,
    show (lit "_max").getLast? = some 120 by decide] at hc
  exact absurd (Option.some.inj hc) (by decide)

lemma notMem_dot_max (i : Fin n) : (46 : UInt8) ∉ res.intToResourceMax i := by
  intro h
  rcases List.mem_append.mp h with h | h
  · exact res.no_dot i h
  · exact absurd h (by decide)

end Fields

lemma mem_appendCount {name : Bytes} {count : ℕ} {e : Bytes × ℚ} (h : e ∈ appendCount name count) :
    e.1 = name := by
  unfold appendCount at h
  split at h
  · rw [List.mem_singleton.mp h]
  · cases h

lemma mem_appendCounts {incs : Increments n} {e : Bytes × ℚ} (h : e ∈ appendCounts incs) :
    e.1 ∈ countFields := by
  simp only [appendCounts,List.mem_append] at h
  rcases h with h | h | h | h <;> rw [mem_appendCount h] <;> decide

lemma entriesAt_incs_max {incs : Increments n} (hs : incs.Sound) (res : Resources n) (i : Fin n) :
    entriesAt (incrementsToBson res incs).incs (res.intToResourceMax i) = 0 := by
  apply entriesAt_eq_zero
  intro e he
  simp only [incrementsToBson,List.mem_append,List.mem_flatMap] at he
  rcases he with he | ⟨j,_,he⟩ | he
  · intro hc
    exact notMem_countFields_max res i (hc ▸ mem_appendCounts he)
  · simp only [appendMetric] at he
    split at he
    · rcases List.mem_pair.mp he with rfl | rfl
      · exact res.ne_max j i
      · exact intToResourceSq_ne_max res j i
    · cases he
  · intro hc
    obtain ⟨⟨k,c⟩,hk,rfl⟩ := List.mem_map.mp he
    have hmem : k ∈ incs.others := by
      rw [Std.ExtTreeMap.mem_iff_isSome_getElem?,Std.ExtTreeMap.mem_toList_iff_getElem?_eq_some.mp hk]
      rfl
    exact notMem_dot_max res i (hc ▸ hs.dotted k hmem)

lemma mem_appendMax {res : Resources n} {incs : Increments n} {i : Fin n} {e : Bytes × ℚ}
    (h : e ∈ appendMax res incs i) : e.1 = res.intToResourceMax i ∧ 0 < (incs.metrics i).val := by
  simp only [appendMax] at h
  split at h
  · rename_i hpos
    exact ⟨by rw [List.mem_singleton.mp h],hpos⟩
  · cases h

lemma pairwise_maxs (res : Resources n) (incs : Increments n) :
    (incrementsToBson res incs).maxs.Pairwise fun a b => a.1 ≠ b.1 := by
  refine List.pairwise_flatMap.mpr ⟨fun i _ => ?_,?_⟩
  · simp only [appendMax]
    split
    · exact List.pairwise_singleton _ _
    · exact List.Pairwise.nil
  · refine (List.nodup_finRange n).imp ?_
    intro i j hij x hx y hy hxy
    rw [(mem_appendMax hx).1,(mem_appendMax hy).1] at hxy
    exact hij (intToResourceMax_injective res hxy)

/-- $max on the field of a metric, if the update has it. -/
def maxAt (m : MetricPair) (stored : Option ℚ) : Option ℚ :=
  if 0 < m.val then some ((stored.map (max · m.valMax)).getD m.valMax) else stored

lemma getElem?_maxs (res : Resources n) (incs : Increments n) (document : Document) (i : Fin n) :
    ((incrementsToBson res incs).maxs.foldl (fun d e => combineAt max d e.1 e.2) document)[res.intToResourceMax i]? =
      maxAt (incs.metrics i) document[res.intToResourceMax i]? := by
  unfold maxAt
  split
  · rename_i hpos
    refine getElem?_foldl_of_mem max (pairwise_maxs res incs) ?_ document
    refine List.mem_flatMap.mpr ⟨i,List.mem_finRange i,?_⟩
    simp only [appendMax,gt_iff_lt]
    rw [if_pos hpos]
    exact List.mem_singleton_self _
  · rename_i hneg
    refine getElem?_foldl_of_notMem max ?_ document
    intro e he
    obtain ⟨j,_,he⟩ := List.mem_flatMap.mp he
    obtain ⟨hkey,hj⟩ := mem_appendMax he
    rw [hkey]
    intro hc
    exact hneg (intToResourceMax_injective res hc ▸ hj)

lemma getElem?_maxs_of_ne (res : Resources n) (incs : Increments n) (document : Document) {f : Bytes}
    (hf : ∀ i, res.intToResourceMax i ≠ f) :
    ((incrementsToBson res incs).maxs.foldl (fun d e => combineAt max d e.1 e.2) document)[f]? =
      document[f]? := by
  refine getElem?_foldl_of_notMem max ?_ document
  intro e he
  obtain ⟨j,_,he⟩ := List.mem_flatMap.mp he
  rw [(mem_appendMax he).1]
  exact hf j

/-- What an update does to the maximum of a metric. -/
lemma applyUpdate_max {incs : Increments n} (hs : incs.Sound) (res : Resources n) (document : Document)
    (i : Fin n) : (applyUpdate document (incrementsToBson res incs))[res.intToResourceMax i]? =
      maxAt (incs.metrics i) document[res.intToResourceMax i]? := by
  rw [applyUpdate,getElem?_maxs]
  congr 1
  have h := value_foldl (incrementsToBson res incs).incs document (res.intToResourceMax i)
  rw [entriesAt_incs_max hs,add_zero] at h
  exact h

/-- What an update does to any other field. -/
lemma applyUpdate_of_ne (res : Resources n) (incs : Increments n) (document : Document) {f : Bytes}
    (hf : ∀ i, res.intToResourceMax i ≠ f) : value (applyUpdate document (incrementsToBson res incs)) f =
      value document f+entriesAt (incrementsToBson res incs).incs f :=
  (getElem?_maxs_of_ne res incs _ hf).trans (value_foldl _ document f)

lemma maxAt_add {x y : MetricPair} (hx : x.Sound) (hy : y.Sound)
    (h : (0 < x.val ∧ 0 < y.val) ∨ (x.val ≤ 0 ∧ y.val ≤ 0) ∨ (0 < x.val ∧ y.valSquared = 0) ∨
      (0 < y.val ∧ x.valSquared = 0)) (stored : Option ℚ) :
    maxAt y (maxAt x stored) = maxAt (x+y) stored := by
  unfold maxAt
  obtain ⟨hpx,hpy⟩ | ⟨hnx,hny⟩ | ⟨hpx,hzy⟩ | ⟨hpy,hzx⟩ := h
  · have hxy : 0 < (x+y).val := add_pos hpx hpy
    rw [if_pos hpx,if_pos hpy,if_pos hxy,MetricPair.add_valMax]
    cases stored with
    | none => rfl
    | some d => simp [max_assoc]
  · have hxy : ¬ 0 < (x+y).val := not_lt.mpr (add_nonpos hnx hny)
    rw [if_neg (not_lt.mpr hnx),if_neg (not_lt.mpr hny),if_neg hxy]
  · obtain ⟨hv,hm⟩ := hy.eq_zero hzy
    have hxy : (x+y).val = x.val := by rw [MetricPair.add_val,hv,add_zero]
    have hmax : (x+y).valMax = x.valMax := by
      rw [MetricPair.add_valMax,hm]
      exact max_eq_left (hx.max_pos hpx).le
    rw [hv,if_neg (lt_irrefl 0),hxy,hmax]
  · obtain ⟨hv,hm⟩ := hx.eq_zero hzx
    have hxy : (x+y).val = y.val := by rw [MetricPair.add_val,hv,zero_add]
    have hmax : (x+y).valMax = y.valMax := by
      rw [MetricPair.add_valMax,hm]
      exact max_eq_right (hy.max_pos hpy).le
    rw [hv,if_neg (lt_irrefl 0),hxy,hmax]

lemma applyUpdate_add {a b : Increments n} (ha : a.Sound) (hb : b.Sound) (h : SignsAgree a b)
    (hfit : CountsFit (a+b)) (res : Resources n) (document : Document) :
    applyUpdate (applyUpdate document (incrementsToBson res a)) (incrementsToBson res b) =
      applyUpdate document (incrementsToBson res (a+b)) := by
  apply ext_value
  intro f
  by_cases hf : ∃ i, res.intToResourceMax i = f
  · obtain ⟨i,rfl⟩ := hf
    have hmax := maxAt_add (ha.metrics i) (hb.metrics i) (h i) document[res.intToResourceMax i]?
    rw [← applyUpdate_max ha,← applyUpdate_max hb] at hmax
    exact hmax.trans (applyUpdate_max (ha.add hb) res document i).symm
  · have hne : ∀ i, res.intToResourceMax i ≠ f := fun i hi => hf ⟨i,hi⟩
    rw [applyUpdate_of_ne res b _ hne,applyUpdate_of_ne res a _ hne,applyUpdate_of_ne res (a+b) _ hne,
      entriesAt_incs_add ha hb h hfit,add_assoc]

/-! The converse: where the signs differ, the sums of squares differ. -/

/-- The number in a field, with a missing field read as zero. -/
def number (x : WithZero ℚ) : ℚ := Option.getD x 0

lemma number_zero : number 0 = 0 := rfl
lemma number_coe (q : ℚ) : number (q : WithZero ℚ) = q := rfl

lemma number_add (x y : WithZero ℚ) : number (x+y) = number x+number y := by
  induction x using WithZero.recZeroCoe with
  | zero => rw [zero_add,number_zero,zero_add]
  | coe p =>
    induction y using WithZero.recZeroCoe with
    | zero => rw [add_zero,number_zero,add_zero]
    | coe q => rfl

lemma sum_appendMetric_sq (res : Resources n) (incs : Increments n) (i : Fin n) :
    ((List.finRange n).map fun j => entriesAt (appendMetric res incs j) (res.intToResourceSq i)).sum =
      if 0 < (incs.metrics i).val then ((incs.metrics i).valSquared : WithZero ℚ) else 0 := by
  have hname : ∀ j, res.intToResource j ≠ res.intToResourceSq i := fun j => res.ne_sq j i
  have hother : ∀ j, j ≠ i → j ∈ List.finRange n →
      entriesAt (appendMetric res incs j) (res.intToResourceSq i) = 0 := by
    intro j hj _
    rw [entriesAt_appendMetric,metricAt,if_neg (hname j),
      if_neg fun hc => hj (intToResourceSq_injective res hc),add_zero,ite_self]
  rw [List.sum_map_eq_nsmul_single i _ hother,List.count_eq_one_of_mem (List.nodup_finRange n)
    (List.mem_finRange i),one_nsmul,entriesAt_appendMetric,metricAt,if_neg (hname i),if_pos rfl,zero_add]

/-- What the sum of squares of a metric has become after an update, counting from zero. -/
lemma number_applyUpdate_sq (res : Resources n) (incs : Increments n) (document : Document) (i : Fin n) :
    number (value (applyUpdate document (incrementsToBson res incs)) (res.intToResourceSq i)) =
      number (value document (res.intToResourceSq i))+
        (number (entriesAt (appendCounts incs) (res.intToResourceSq i))+
          ((if 0 < (incs.metrics i).val then (incs.metrics i).valSquared else 0)+
            number (entriesAt (appendOthers incs) (res.intToResourceSq i)))) := by
  have hne : ∀ j, res.intToResourceMax j ≠ res.intToResourceSq i :=
    fun j hc => intToResourceSq_ne_max res i j hc.symm
  rw [applyUpdate_of_ne res incs document hne,entriesAt_incs,sum_appendMetric_sq,number_add,number_add,
    number_add]
  split
  · rw [number_coe]
  · rw [number_zero]

lemma squares_of_eq {a b : Increments n} (hfit : CountsFit (a+b)) {res : Resources n} {document : Document}
    (h : applyUpdate (applyUpdate document (incrementsToBson res a)) (incrementsToBson res b) =
      applyUpdate document (incrementsToBson res (a+b))) (i : Fin n) :
    (if 0 < (a.metrics i).val then (a.metrics i).valSquared else 0)+
      (if 0 < (b.metrics i).val then (b.metrics i).valSquared else 0) =
      if 0 < (a.metrics i).val+(b.metrics i).val then
        (a.metrics i).valSquared+(b.metrics i).valSquared else 0 := by
  have hsq := congrArg (fun d => number (value d (res.intToResourceSq i))) h
  simp only [number_applyUpdate_sq,entriesAt_appendCounts_add hfit,entriesAt_appendOthers_add hfit,
    number_add] at hsq
  have hmerged : (if 0 < ((a+b).metrics i).val then ((a+b).metrics i).valSquared else 0) =
      if 0 < (a.metrics i).val+(b.metrics i).val then
        (a.metrics i).valSquared+(b.metrics i).valSquared else 0 := rfl
  rw [hmerged] at hsq
  linarith

lemma signsAgree_of_squares {x y : MetricPair} (hx : x.Sound) (hy : y.Sound)
    (h : (if 0 < x.val then x.valSquared else 0)+(if 0 < y.val then y.valSquared else 0) =
      if 0 < x.val+y.val then x.valSquared+y.valSquared else 0) :
    (0 < x.val ∧ 0 < y.val) ∨ (x.val ≤ 0 ∧ y.val ≤ 0) ∨ (0 < x.val ∧ y.valSquared = 0) ∨
      (0 < y.val ∧ x.valSquared = 0) := by
  rcases lt_or_ge 0 x.val with hpx | hnx
  · rcases lt_or_ge 0 y.val with hpy | hny
    · exact .inl ⟨hpx,hpy⟩
    · rw [if_pos hpx,if_neg (not_lt.mpr hny),add_zero] at h
      refine .inr (.inr (.inl ⟨hpx,?_⟩))
      split at h
      · linarith
      · exact absurd (hx.eq_zero h).1 hpx.ne'
  · rcases lt_or_ge 0 y.val with hpy | hny
    · rw [if_pos hpy,if_neg (not_lt.mpr hnx),zero_add] at h
      refine .inr (.inr (.inr ⟨hpy,?_⟩))
      split at h
      · linarith
      · exact absurd (hy.eq_zero h).1 hpy.ne'
    · exact .inr (.inl ⟨hnx,hny⟩)

/-- The updates of two batches have the same effect as the update of the merged batch exactly if
the signs of their metrics agree. It takes names that are apart (Resources.injective, ne_sq, ne_max and no_dot). -/
theorem incrementsToBson_batches (env : Env n) {a b : Increments n} (ha : Producible env a)
    (hb : Producible env b) (hfit : CountsFit (incrementsAdd a b)) (document : Document) :
    applyUpdate (applyUpdate document (incrementsToBson env.res a)) (incrementsToBson env.res b) =
      applyUpdate document (incrementsToBson env.res (incrementsAdd a b)) ↔ SignsAgree a b := by
  constructor
  · intro h i
    exact signsAgree_of_squares (ha.sound.metrics i) (hb.sound.metrics i) (squares_of_eq hfit h i)
  · intro h
    exact applyUpdate_add ha.sound hb.sound h hfit env.res document

theorem incrementsToBson_batches_ajax :
    applyUpdate (applyUpdate ∅ (incrementsToBson sampleResources
        (ajaxIncrements sampleEnv [(lit "ajax_time",.int 40)] 40)))
        (incrementsToBson sampleResources (ajaxIncrements sampleEnv [(lit "ajax_time",.int 60)] 60)) =
      applyUpdate ∅ (incrementsToBson sampleResources
        (incrementsAdd (ajaxIncrements sampleEnv [(lit "ajax_time",.int 40)] 40)
          (ajaxIncrements sampleEnv [(lit "ajax_time",.int 60)] 60))) :=
  (incrementsToBson_batches sampleEnv (.ajax _ _) (.ajax _ _) (by decide +kernel) ∅).mpr
    (by unfold SignsAgree; decide +kernel)

/-- A request whose parts take longer than the whole, so that its other_time is below zero. -/
def overdrawnRequest : ParsedMsg where
  stream := lit "shop-production"
  topic := lit "logs.shop.production"
  request := .obj [(lit "action",.str (lit "Cart#show")),
    (lit "started_at",.str (lit "2026-01-31T10:20:30")),(lit "total_time",.int 1),(lit "db_time",.int 6)]
  tracked := false

/-- The totals of all pages after a single message. -/
def totalsAfter (msg : ParsedMsg) : Option (Increments 10) :=
  match parseAll sampleEnv [msg] with
  | .error _ => none
  | .ok state => (state.processors[lit "logjam-shop-production-2026-01-31"]?).bind
      fun p => p.totals[lit "all_pages"]?

lemma totalsAfter_overdrawnRequest : (totalsAfter overdrawnRequest).isSome := by decide +kernel
lemma totalsAfter_sampleRequest : (totalsAfter Controller.sampleRequest).isSome := by decide +kernel

/-- Sent in one batch the two requests add both squares of other_time, in two batches only one. -/
theorem incrementsToBson_overdrawn : ∃ a b,
    totalsAfter overdrawnRequest = some a ∧ totalsAfter Controller.sampleRequest = some b ∧
      CountsFit (incrementsAdd a b) ∧
      applyUpdate (applyUpdate ∅ (incrementsToBson sampleResources a)) (incrementsToBson sampleResources b) ≠
        applyUpdate ∅ (incrementsToBson sampleResources (incrementsAdd a b)) := by
  refine ⟨_,_,(Option.some_get totalsAfter_overdrawnRequest).symm,
    (Option.some_get totalsAfter_sampleRequest).symm,by decide +kernel,?_⟩
  intro h
  exact absurd (congrArg (fun d : Document => d[lit "other_time_sq"]?) h) (by decide +kernel)

end Logjam.Importer
