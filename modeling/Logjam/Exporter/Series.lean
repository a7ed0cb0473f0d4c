import Logjam.Exporter.CollectorManager

/-! The time series of a collector, and which of them its observer records a metric in. A series is a
metric of one of the vectors; the client library finds it by the values of its labels. -/
namespace Logjam.Exporter.ActionRegistry
open Logjam.Importer (ZHash)

/-- A collector with the options its goroutines use. -/
structure ObservingCollector extends ManagedCollector where
  verbose : Bool
  /-- Minutes after which an action is stale; an uint from the command line. -/
  cleanAfter : UInt64

/-- The metric vectors. -/
inductive Vec
  | httpRequestSummaryVec
  | jobExecutionSummaryVec
  | httpRequestHistogramVec
  | jobExecutionHistogramVec
  | pageHistogramVec
  | ajaxHistogramVec
  deriving DecidableEq

namespace Vec

/-- In the order of their registration. -/
def all : List Vec :=
  [httpRequestHistogramVec,jobExecutionHistogramVec,httpRequestSummaryVec,jobExecutionSummaryVec,
    pageHistogramVec,ajaxHistogramVec]

def name : Vec → Bytes
  | httpRequestSummaryVec => lit "logjam:action:http_response_time_summary_seconds"
  | jobExecutionSummaryVec => lit "logjam:action:job_execution_time_summary_seconds"
  | httpRequestHistogramVec => lit "logjam:action:http_response_time_distribution_seconds"
  | jobExecutionHistogramVec => lit "logjam:action:job_execution_time_distribution_seconds"
  | pageHistogramVec => lit "logjam:action:page_time_distribution_seconds"
  | ajaxHistogramVec => lit "logjam:action:ajax_time_distribution_seconds"

def labelNames : Vec → List Bytes
  | httpRequestSummaryVec => [lit "app",lit "env",lit "action",lit "type",lit "code",lit "method",
      lit "instance",lit "cluster",lit "dc"]
  | jobExecutionSummaryVec => [lit "app",lit "env",lit "action",lit "code",lit "instance",lit "cluster",
      lit "dc"]
  | httpRequestHistogramVec => [lit "app",lit "env",lit "action",lit "type",lit "method",lit "instance"]
  | jobExecutionHistogramVec | pageHistogramVec | ajaxHistogramVec =>
    [lit "app",lit "env",lit "action",lit "instance"]

/-- The vector with a name, as removeAction selects it. -/
def ofName (name : Bytes) : Option Vec := all.find? (·.name == name)

lemma ofName_name (vec : Vec) : ofName vec.name = some vec := by
  cases vec <;> decide

lemma mem_all (vec : Vec) : vec ∈ all := by
  cases vec <;> decide

lemma action_mem_labelNames (vec : Vec) : lit "action" ∈ vec.labelNames := by
  cases vec <;> decide

lemma nodup_labelNames (vec : Vec) : vec.labelNames.Nodup := by
  cases vec <;> decide +kernel

end Vec

/-- A time series: its vector and a value for every label. -/
structure Series where
  vec : Vec
  values : List Bytes
  length_values : values.length = vec.labelNames.length
  deriving DecidableEq

def Series.pairs (x : Series) : List (Bytes × Bytes) := x.vec.labelNames.zip x.values

/-- A metric as Gather returns it: the name of its family and its labels. -/
structure Sample where
  name : Bytes
  pairs : List (Bytes × Bytes)
  deriving DecidableEq

def Series.sample (x : Series) : Sample := ⟨x.vec.name,x.pairs⟩

def hasLabel (pairs : List (Bytes × Bytes)) (label value : Bytes) : Bool :=
  pairs.any fun p => p.1 == label && p.2 == value

def labelsFromLabelPairs (pairs : List (Bytes × Bytes)) : ZHash Bytes := Std.ExtTreeMap.ofList pairs compare

/-- The action a series belongs to. -/
def Series.action (x : Series) : Bytes := (labelsFromLabelPairs x.pairs).getD (lit "action") []

/-- The series with these labels. With panics when they are not those of the vector. -/
def Vec.withLabels (vec : Vec) (labels : ZHash Bytes) : Option Series :=
  if labels.size = vec.labelNames.length ∧ ∀ name ∈ vec.labelNames, name ∈ labels then
    some ⟨vec,vec.labelNames.map fun name => labels.getD name [],List.length_map _⟩
  else none

def Vec.delete (vec : Vec) (series : List Series) (labels : ZHash Bytes) : List Series :=
  match vec.withLabels labels with
  | some x => series.filter (· ≠ x)
  | none => series

/-- The body of the loop in removeAction, for a metric of the action. -/
def deleteSample (series : List Series) (sample : Sample) : List Series :=
  match Vec.ofName sample.name with
  | some vec => vec.delete series (labelsFromLabelPairs sample.pairs)
  | none => series

section Labels

lemma hasLabel_iff (pairs : List (Bytes × Bytes)) (label value : Bytes) :
    hasLabel pairs label value = true ↔ (label,value) ∈ pairs := by
  simp only [hasLabel,List.any_eq_true,Bool.and_eq_true,beq_iff_eq,Prod.exists]
  constructor
  · rintro ⟨_,_,hmem,rfl,rfl⟩
    exact hmem
  · intro hmem
    exact ⟨label,value,hmem,rfl,rfl⟩

namespace Series
variable (x : Series)

lemma map_fst_pairs : x.pairs.map Prod.fst = x.vec.labelNames :=
  List.map_fst_zip (le_of_eq x.length_values.symm)

lemma distinct_pairs : x.pairs.Pairwise fun p q => ¬compare p.1 q.1 = .eq := by
  have hnodup : (x.pairs.map Prod.fst).Nodup := x.map_fst_pairs ▸ x.vec.nodup_labelNames
  refine (List.pairwise_map.mp hnodup).imp ?_
  intro p q hne heq
  exact hne (Std.LawfulEqCmp.eq_of_compare heq)

/-- The labels of a series are a map. -/
lemma getD_labels {label value : Bytes} (h : (label,value) ∈ x.pairs) (d : Bytes) :
    (labelsFromLabelPairs x.pairs).getD label d = value :=
  Std.ExtTreeMap.getD_ofList_of_mem Std.ReflCmp.compare_self x.distinct_pairs h

lemma exists_pair {label : Bytes} (h : label ∈ x.vec.labelNames) : ∃ value, (label,value) ∈ x.pairs := by
  rw [← x.map_fst_pairs] at h
  obtain ⟨⟨_,value⟩,hmem,rfl⟩ := List.mem_map.mp h
  exact ⟨value,hmem⟩

lemma hasLabel_action (a : Bytes) : hasLabel x.pairs (lit "action") a = true ↔ x.action = a := by
  rw [hasLabel_iff]
  constructor
  · intro h
    exact x.getD_labels h []
  · rintro rfl
    obtain ⟨a,hmem⟩ := x.exists_pair x.vec.action_mem_labelNames
    rwa [Series.action,x.getD_labels hmem]

/-- The labels that Gather returns lead back to the series. -/
lemma withLabels_pairs : x.vec.withLabels (labelsFromLabelPairs x.pairs) = some x := by
  have hsize : (labelsFromLabelPairs x.pairs).size = x.vec.labelNames.length := by
    rw [labelsFromLabelPairs,Std.ExtTreeMap.size_ofList x.distinct_pairs,← x.map_fst_pairs,List.length_map]
  have hmem : ∀ name ∈ x.vec.labelNames, name ∈ labelsFromLabelPairs x.pairs := by
    intro name hname
    rw [labelsFromLabelPairs,Std.ExtTreeMap.mem_ofList,x.map_fst_pairs]
    exact List.contains_iff_mem.mpr hname
  have hvalues : (x.vec.labelNames.map fun name => (labelsFromLabelPairs x.pairs).getD name []) = x.values := by
    apply List.ext_getElem (by rw [List.length_map,x.length_values])
    intro i hi hi'
    rw [List.getElem_map]
    apply x.getD_labels
    exact List.mem_iff_getElem.mpr ⟨i,by simp_all [pairs],by simp [pairs]⟩
  rw [Vec.withLabels,if_pos ⟨hsize,hmem⟩]
  congr 2

lemma sample_injective : Function.Injective sample := by
  intro x y h
  have hvec : x.vec = y.vec := by
    have hname : Vec.ofName x.vec.name = Vec.ofName y.vec.name := congrArg (fun sample => Vec.ofName sample.name) h
    rwa [Vec.ofName_name,Vec.ofName_name,Option.some_inj] at hname
  have hpairs : x.pairs = y.pairs := congrArg Sample.pairs h
  apply Option.some_injective
  rw [← x.withLabels_pairs,← y.withLabels_pairs,hvec,hpairs]

lemma deleteSample_sample (series : List Series) : deleteSample series x.sample = series.filter (· ≠ x) := by
  simp only [deleteSample,sample,Vec.ofName_name,Vec.delete,withLabels_pairs]

end Series

/-- A series recorded with some labels belongs to their action. -/
lemma Vec.action_of_withLabels {vec : Vec} {labels : ZHash Bytes} {x : Series}
    (h : vec.withLabels labels = some x) : x.action = labels.getD (lit "action") [] := by
  rw [Vec.withLabels] at h
  split_ifs at h
  cases h
  have hzip : vec.labelNames.zip (vec.labelNames.map fun name => labels.getD name []) =
      vec.labelNames.map fun name => (name,labels.getD name []) := by
    simpa using List.zip_map' (l := vec.labelNames) (f := id) (g := fun name => labels.getD name [])
  apply Series.getD_labels
  rw [Series.pairs,hzip]
  exact List.mem_map.mpr ⟨lit "action",vec.action_mem_labelNames,rfl⟩

end Labels


inductive MetricKind
  | logMetric
  | pageMetric
  | ajaxMetric
  /-- The observer has no case for any other kind. -/
  | other
  deriving DecidableEq

structure Metric where
  kind : MetricKind
  props : ZHash Bytes

/-- A map in Go has the empty string for what is not in it. -/
def Metric.action (m : Metric) : Bytes := m.props.getD (lit "action") []

/-- The observer, in the middle of a metric: what it has still to observe before it sends the action. -/
inductive Observer
  | idle
  | recording (plan : List (Vec × ZHash Bytes)) (action : Bytes)

def requestType (c : ObservingCollector) (action : Bytes) : Bytes :=
  if c.apiRequests.any (·.isPrefixOf action) then lit "api" else lit "web"

def fixDatacenter (c : ObservingCollector) (props : ZHash Bytes) (inst : Bytes) : ZHash Bytes :=
  let dc := props.getD (lit "dc") []
  if dc = lit "unknown" ∨ dc = [] then
    match c.datacenters.find? fun name => (strstr inst (lit "." ++ name ++ lit ".")).isSome with
    | some name => props.insert (lit "dc") name
    | none => if c.verbose then props.insert (lit "dc") c.defaultDC else props
  else props

/-- The histograms of a log metric have fewer labels than the summaries. -/
def withoutDetails (props : ZHash Bytes) : ZHash Bytes :=
  ((props.erase (lit "code")).erase (lit "cluster")).erase (lit "dc")

def recordLogMetrics (c : ObservingCollector) (m : Metric) : Observer :=
  let metric := m.props.getD (lit "metric") []
  let inst := m.props.getD (lit "instance") []
  let props := m.props.insert (lit "instance") []
  let action := props.getD (lit "action") []
  let props := fixDatacenter c (props.erase (lit "metric")) inst
  if metric = lit "http" then
    let props := props.insert (lit "type") (requestType c action)
    .recording [(.httpRequestSummaryVec,props),(.httpRequestHistogramVec,withoutDetails props)] action
  else if metric = lit "job" then
    .recording [(.jobExecutionSummaryVec,props),(.jobExecutionHistogramVec,withoutDetails props)] action
  else .idle

/-- Both kinds of frontend metrics are observed in one histogram. -/
def recordFrontendMetrics (vec : Vec) (m : Metric) : Observer :=
  let props := m.props.insert (lit "instance") []
  .recording [(vec,props)] (props.getD (lit "action") [])

def recordPageMetrics (m : Metric) : Observer := recordFrontendMetrics .pageHistogramVec m

def recordAjaxMetrics (m : Metric) : Observer := recordFrontendMetrics .ajaxHistogramVec m

def record (c : ObservingCollector) (m : Metric) : Observer :=
  match m.kind with
  | .logMetric => recordLogMetrics c m
  | .pageMetric => recordPageMetrics m
  | .ajaxMetric => recordAjaxMetrics m
  | .other => .idle

section Record
variable (c : ObservingCollector) (props : ZHash Bytes)

lemma action_insert {key : Bytes} (h : key ≠ lit "action") (value : Bytes) :
    (props.insert key value).getD (lit "action") [] = props.getD (lit "action") [] := by
  rw [Std.ExtTreeMap.getD_insert,if_neg (mt Std.LawfulEqCmp.eq_of_compare h)]

lemma action_erase {key : Bytes} (h : key ≠ lit "action") :
    (props.erase key).getD (lit "action") [] = props.getD (lit "action") [] := by
  rw [Std.ExtTreeMap.getD_erase,if_neg (mt Std.LawfulEqCmp.eq_of_compare h)]

lemma action_fixDatacenter (inst : Bytes) :
    (fixDatacenter c props inst).getD (lit "action") [] = props.getD (lit "action") [] := by
  have hdc := action_insert props (show lit "dc" ≠ lit "action" by decide)
  unfold fixDatacenter
  dsimp only
  split
  · split
    · exact hdc _
    · split
      · exact hdc _
      · rfl
  · rfl

lemma action_withoutDetails : (withoutDetails props).getD (lit "action") [] = props.getD (lit "action") [] := by
  rw [withoutDetails,action_erase _ (by decide),action_erase _ (by decide),action_erase _ (by decide)]

/-- The observer has nothing to do, or it records series of the metric's action and then sends it. -/
lemma record_cases (m : Metric) : record c m = .idle ∨ ∃ plan, record c m = .recording plan m.action ∧
    ∀ entry ∈ plan, entry.2.getD (lit "action") [] = m.action := by
  have hinstance : (m.props.insert (lit "instance") []).getD (lit "action") [] = m.action :=
    action_insert _ (by decide) _
  have hfixed : (fixDatacenter c ((m.props.insert (lit "instance") []).erase (lit "metric"))
      (m.props.getD (lit "instance") [])).getD (lit "action") [] = m.action := by
    rw [action_fixDatacenter,action_erase _ (by decide),hinstance]
  have hfrontend : ∀ vec, ∃ plan, recordFrontendMetrics vec m = .recording plan m.action ∧
      ∀ entry ∈ plan, entry.2.getD (lit "action") [] = m.action := by
    intro vec
    simp only [recordFrontendMetrics,hinstance]
    exact ⟨_,rfl,by simpa using hinstance⟩
  cases hkind : m.kind <;> simp only [record,hkind]
  · simp only [recordLogMetrics,hinstance]
    split
    · refine .inr ⟨_,rfl,?_⟩
      simp only [List.mem_cons,List.not_mem_nil,or_false,forall_eq_or_imp,forall_eq]
      rw [action_withoutDetails,action_insert _ (by decide)]
      exact ⟨hfixed,hfixed⟩
    · split
      · refine .inr ⟨_,rfl,?_⟩
        simp only [List.mem_cons,List.not_mem_nil,or_false,forall_eq_or_imp,forall_eq]
        rw [action_withoutDetails]
        exact ⟨hfixed,hfixed⟩
      · exact .inl rfl
  · exact .inr (hfrontend _)
  · exact .inr (hfrontend _)
  · exact .inl trivial

end Record

end Logjam.Exporter.ActionRegistry
