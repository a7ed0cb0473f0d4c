import Logjam.Exporter.Series

/-! What a log message adds to the vectors, for collectors that log more or less. Debug only logs. Verbose
decides about a label as well, where the datacenter of a message cannot be told. -/
namespace Logjam.Exporter.ActionRegistry
open Logjam.Importer (ZHash)

/-- What a call of Observe is given. -/
structure ObserveCall where
  vec : Vec
  labels : ZHash Bytes
  value : ℚ

def Observer.observations (value : ℚ) : Observer → List ObserveCall
  | .idle => []
  | .recording plan _ => plan.map fun entry => ⟨entry.1,entry.2,value⟩

/-- The observations for a log message, unless it is dropped. -/
def observeLogMessage (go : GoLib) (c : ObservingCollector) (data : JObject) : Option (List ObserveCall) :=
  match processLogMessage go c.toCollector data with
  | .metric props value =>
    some ((recordLogMetrics c ⟨.logMetric,labelsFromLabelPairs props⟩).observations value)
  | .ignored | .dropped => none

def ObservingCollector.withVerbose (c : ObservingCollector) (verbose : Bool) : ObservingCollector :=
  { c with verbose := verbose }

/-- The datacenter a message names and the host it comes from. -/
def datacenterOf (go : GoLib) (c : Collector) (data : JObject) : Bytes :=
  extractString go data (lit "datacenter") c.defaultDC

def hostOf (go : GoLib) (data : JObject) : Bytes := extractString go data (lit "host") (lit "unknown")

/-- The label is the same whether or not the default replaces what could not be fixed. -/
def DatacenterSettled (c : ObservingCollector) (dc host : Bytes) : Prop :=
  (dc ≠ lit "unknown" ∧ dc ≠ []) ∨
    (∃ name ∈ c.datacenters, (strstr host (lit "." ++ name ++ lit ".")).isSome) ∨ dc = c.defaultDC

section Labels
variable (go : GoLib) (c : Collector) (data : JObject)

/-- The labels that distinguish requests from jobs. -/
inductive KindLabels : List (Bytes × Bytes) → Prop
  | http (method : Bytes) : KindLabels [(lit "metric",lit "http"),(lit "method",method)]
  | job : KindLabels [(lit "metric",lit "job")]

def logProps (kind : List (Bytes × Bytes)) : List (Bytes × Bytes) :=
  [(lit "app",c.app),(lit "env",c.env)] ++ kind ++
    [(lit "action",extractAction go data),(lit "code",extractString go data (lit "code") (lit "500")),
      (lit "instance",hostOf go data),(lit "cluster",extractString go data (lit "cluster") (lit "unknown")),
      (lit "dc",datacenterOf go c data)]

/-- The message is to be ignored, its request is, or its total time is no number. -/
def NotObserved : Prop :=
  extractBool data (lit "logjam_ignore_message") = true ∨
    (extractMap data (lit "request_info")).any (ignoredByUrl go c) = true ∨
    go.parseFloat (extractString go data (lit "total_time") (lit "0")) = none

lemma processLogMessage_cases :
    NotObserved go c data ∧ (∀ props value, processLogMessage go c data ≠ .metric props value) ∨
      ¬NotObserved go c data ∧
        ∃ kind value, KindLabels kind ∧ processLogMessage go c data = .metric (logProps go c data kind) value := by
  unfold processLogMessage NotObserved
  dsimp only
  split
  · next hignored => exact .inl ⟨.inl hignored,fun _ _ h => nomatch h⟩
  next hignored =>
  split
  · next hurl => exact .inl ⟨.inr (.inl hurl),fun _ _ h => nomatch h⟩
  next hurl =>
  split
  · next htime => exact .inl ⟨.inr (.inr htime),fun _ _ h => nomatch h⟩
  next htime =>
  refine .inr ⟨by simp [hignored,hurl,htime],_,_,?_,rfl⟩
  split
  · exact .http _
  · exact .job

variable {go c data}

lemma KindLabels.distinct {kind : List (Bytes × Bytes)} (h : KindLabels kind) :
    (logProps go c data kind).Pairwise fun p q => ¬compare p.1 q.1 = .eq := by
  have hnodup : ((logProps go c data kind).map Prod.fst).Nodup := by
    cases h <;> simp only [logProps,List.map_append,List.map_cons,List.map_nil] <;> decide +kernel
  refine (List.pairwise_map.mp hnodup).imp ?_
  intro p q hne heq
  exact hne (Std.LawfulEqCmp.eq_of_compare heq)

lemma KindLabels.getElem {kind : List (Bytes × Bytes)} (h : KindLabels kind) {label value : Bytes}
    (hmem : (label,value) ∈ logProps go c data kind) :
    (labelsFromLabelPairs (logProps go c data kind))[label]? = some value :=
  Std.ExtTreeMap.getElem?_ofList_of_mem Std.ReflCmp.compare_self h.distinct hmem

lemma getD_of_getElem {labels : ZHash Bytes} {label value : Bytes} (h : labels[label]? = some value) :
    labels.getD label [] = value := by
  rw [Std.ExtTreeMap.getD_eq_getD_getElem?,h,Option.getD_some]

lemma KindLabels.metric {kind : List (Bytes × Bytes)} (h : KindLabels kind) :
    (labelsFromLabelPairs (logProps go c data kind)).getD (lit "metric") [] = lit "http" ∨
      (labelsFromLabelPairs (logProps go c data kind)).getD (lit "metric") [] = lit "job" := by
  cases h with
  | http method =>
    have hmem : (lit "metric",lit "http") ∈ logProps go c data [(lit "metric",lit "http"),(lit "method",method)] := by
      simp [logProps]
    exact .inl (getD_of_getElem ((KindLabels.http method).getElem hmem))
  | job =>
    have hmem : (lit "metric",lit "job") ∈ logProps go c data [(lit "metric",lit "job")] := by
      simp [logProps]
    exact .inr (getD_of_getElem (KindLabels.job.getElem hmem))

end Labels

section TwoCollectors
variable {go : GoLib} {c : ObservingCollector} {props : ZHash Bytes} {dc host : Bytes} {v w : Bool}

lemma fixDatacenter_of_known (hdc : props.getD (lit "dc") [] = dc) (h : dc ≠ lit "unknown" ∧ dc ≠ []) :
    fixDatacenter c props host = props := by
  unfold fixDatacenter
  dsimp only
  rw [hdc,if_neg (not_or.mpr h)]

lemma fixDatacenter_of_find (hdc : props.getD (lit "dc") [] = dc) (h : dc = lit "unknown" ∨ dc = [])
    (hfind : ∃ name ∈ c.datacenters, (strstr host (lit "." ++ name ++ lit ".")).isSome) :
    ∃ name, ∀ v, fixDatacenter (c.withVerbose v) props host = props.insert (lit "dc") name := by
  obtain ⟨name,hname⟩ := Option.isSome_iff_exists.mp (List.find?_isSome.mpr hfind)
  refine ⟨name,?_⟩
  intro v
  unfold fixDatacenter
  dsimp only [ObservingCollector.withVerbose]
  rw [hdc,if_pos h,hname]

lemma fixDatacenter_of_none (hdc : props.getD (lit "dc") [] = dc) (h : dc = lit "unknown" ∨ dc = [])
    (hnone : ¬∃ name ∈ c.datacenters, (strstr host (lit "." ++ name ++ lit ".")).isSome) :
    fixDatacenter (c.withVerbose v) props host = if v then props.insert (lit "dc") c.defaultDC else props := by
  have hfind : (c.datacenters.find? fun name => (strstr host (lit "." ++ name ++ lit ".")).isSome) = none := by
    rw [← Option.not_isSome_iff_eq_none,List.find?_isSome]
    exact hnone
  unfold fixDatacenter
  dsimp only [ObservingCollector.withVerbose]
  rw [hdc,if_pos h,hfind]
  rfl

/-- A label that is settled does not depend on the option. -/
lemma fixDatacenter_of_settled (hdc : props[lit "dc"]? = some dc) (h : DatacenterSettled c dc host) :
    fixDatacenter (c.withVerbose v) props host = fixDatacenter (c.withVerbose w) props host := by
  have hget := getD_of_getElem hdc
  by_cases hknown : dc ≠ lit "unknown" ∧ dc ≠ []
  · rw [fixDatacenter_of_known hget hknown,fixDatacenter_of_known hget hknown]
  by_cases hfind : ∃ name ∈ c.datacenters, (strstr host (lit "." ++ name ++ lit ".")).isSome
  · obtain ⟨name,hname⟩ := fixDatacenter_of_find hget (by tauto) hfind
    rw [hname,hname]
  -- the default replaces itself
  obtain rfl : dc = c.defaultDC := (h.resolve_left hknown).resolve_left hfind
  have hself : props.insert (lit "dc") c.defaultDC = props := by
    apply Std.ExtTreeMap.ext_getElem?
    intro key
    rw [Std.ExtTreeMap.getElem?_insert]
    split
    · rename_i heq
      rw [← Std.LawfulEqCmp.eq_of_compare heq,hdc]
    · rfl
  rw [fixDatacenter_of_none hget (by tauto) hfind,fixDatacenter_of_none hget (by tauto) hfind,hself,ite_self,ite_self]

lemma fixDatacenter_of_not_settled (hdc : props[lit "dc"]? = some dc) (h : ¬DatacenterSettled c dc host) :
    (fixDatacenter (c.withVerbose v) props host)[lit "dc"]? = some (if v then c.defaultDC else dc) := by
  have hget := getD_of_getElem hdc
  obtain ⟨hknown,hfind⟩ := not_or.mp h
  rw [fixDatacenter_of_none hget (by tauto) (not_or.mp hfind).1]
  cases v with
  | false => exact hdc
  | true => exact Std.ExtTreeMap.getElem?_insert_self

/-- The labels of a log message before its datacenter is fixed. -/
def unfixed (props : ZHash Bytes) : ZHash Bytes := (props.insert (lit "instance") []).erase (lit "metric")

lemma getElem_unfixed {key : Bytes} (hinstance : lit "instance" ≠ key) (hmetric : lit "metric" ≠ key) :
    (unfixed props)[key]? = props[key]? := by
  rw [unfixed,Std.ExtTreeMap.getElem?_erase,if_neg (mt Std.LawfulEqCmp.eq_of_compare hmetric),
    Std.ExtTreeMap.getElem?_insert,if_neg (mt Std.LawfulEqCmp.eq_of_compare hinstance)]

/-- Nothing but the datacenter can make a difference. -/
lemma recordLogMetrics_congr
    (h : fixDatacenter (c.withVerbose v) (unfixed props) (props.getD (lit "instance") []) =
      fixDatacenter (c.withVerbose w) (unfixed props) (props.getD (lit "instance") [])) :
    recordLogMetrics (c.withVerbose v) ⟨.logMetric,props⟩ = recordLogMetrics (c.withVerbose w) ⟨.logMetric,props⟩ := by
  unfold recordLogMetrics
  dsimp only
  rw [← unfixed,h]
  rfl

/-- The summary has the datacenter among its labels. -/
lemma observations_head (value : ℚ)
    (hmetric : props.getD (lit "metric") [] = lit "http" ∨ props.getD (lit "metric") [] = lit "job") :
    ((recordLogMetrics c ⟨.logMetric,props⟩).observations value).head?.map (fun o => o.labels[lit "dc"]?) =
      some (fixDatacenter c (unfixed props) (props.getD (lit "instance") []))[lit "dc"]? := by
  unfold recordLogMetrics
  dsimp only
  obtain hhttp | hjob := hmetric
  · rw [hhttp,if_pos rfl]
    change some (((fixDatacenter c (unfixed props) (props.getD (lit "instance") [])).insert (lit "type") _)[lit "dc"]?) = _
    rw [Std.ExtTreeMap.getElem?_insert,if_neg (mt Std.LawfulEqCmp.eq_of_compare (by decide))]
  · rw [hjob,if_neg (by decide),if_pos rfl]
    rfl

end TwoCollectors

/-- Messages are dropped by both collectors or by neither. What they observe is the same where the datacenter is
settled; elsewhere a verbose collector writes its default datacenter over the label, and a quiet one keeps it. -/
theorem observeLogMessage_verbose_iff (go : GoLib) (c : ObservingCollector) (data : JObject) (v w : Bool) :
    (observeLogMessage go (c.withVerbose v) data = none ↔ observeLogMessage go (c.withVerbose w) data = none) ∧
      (observeLogMessage go (c.withVerbose v) data = observeLogMessage go (c.withVerbose w) data ↔
        v = w ∨ NotObserved go c.toCollector data ∨
          DatacenterSettled c (datacenterOf go c.toCollector data) (hostOf go data)) := by
  have hprocess : ∀ v, processLogMessage go (c.withVerbose v).toCollector data = processLogMessage go c.toCollector data :=
    fun _ => rfl
  unfold observeLogMessage
  rw [hprocess,hprocess]
  obtain ⟨hnot,hdropped⟩ | ⟨hnot,kind,value,hkind,hmetric⟩ := processLogMessage_cases go c.toCollector data
  · cases hp : processLogMessage go c.toCollector data with
    | ignored => simp [hnot]
    | dropped => simp [hnot]
    | metric props value => exact absurd hp (hdropped props value)
  rw [hmetric]
  simp only [reduceCtorEq,Option.some.injEq,hnot,false_or,true_and]
  have hhost : (labelsFromLabelPairs (logProps go c.toCollector data kind)).getD (lit "instance") [] = hostOf go data := by
    have hmem : (lit "instance",hostOf go data) ∈ logProps go c.toCollector data kind := by simp [logProps]
    exact getD_of_getElem (hkind.getElem hmem)
  have hdc : (unfixed (labelsFromLabelPairs (logProps go c.toCollector data kind)))[lit "dc"]? =
      some (datacenterOf go c.toCollector data) := by
    rw [getElem_unfixed (by decide) (by decide)]
    exact hkind.getElem (by simp [logProps])
  constructor
  · intro heq
    by_contra hnot
    obtain ⟨hne,hsettled⟩ := not_or.mp hnot
    have hlabel := congrArg (fun l : List ObserveCall => l.head?.map fun o => o.labels[lit "dc"]?) heq
    rw [observations_head value hkind.metric,observations_head value hkind.metric,hhost,
      fixDatacenter_of_not_settled hdc hsettled,fixDatacenter_of_not_settled hdc hsettled] at hlabel
    have hdefault : datacenterOf go c.toCollector data ≠ c.defaultDC := (not_or.mp (not_or.mp hsettled).2).2
    cases v <;> cases w <;> simp_all
  · rintro (rfl | hsettled)
    · rfl
    · rw [recordLogMetrics_congr]
      rw [hhost]
      exact fixDatacenter_of_settled hdc hsettled

/-- A job on a host that names no datacenter. -/
def strayMessage : JObject := [(lit "datacenter",.str (lit "unknown")),(lit "host",.str (lit "worker-1"))]

def strayCollector : ObservingCollector where
  toCollector := collectorFor []
  name := []
  apiRequests := []
  datacenters := [lit "dc1",lit "dc2"]
  stopped := 0
  verbose := false
  cleanAfter := 60

def summaryDatacenter (verbose : Bool) : Option (Option Bytes) := do
  let observations ← observeLogMessage importerGo (strayCollector.withVerbose verbose) strayMessage
  let first ← observations.head?
  return first.labels[lit "dc"]?

theorem observeLogMessage_stray :
    summaryDatacenter true = some (some (lit "dc1")) ∧ summaryDatacenter false = some (some (lit "unknown")) ∧
      observeLogMessage importerGo (strayCollector.withVerbose true) strayMessage ≠
        observeLogMessage importerGo (strayCollector.withVerbose false) strayMessage := by
  have htrue : summaryDatacenter true = some (some (lit "dc1")) := by decide +kernel
  have hfalse : summaryDatacenter false = some (some (lit "unknown")) := by decide +kernel
  refine ⟨htrue,hfalse,?_⟩
  intro heq
  have hsame : summaryDatacenter true = summaryDatacenter false := by
    rw [summaryDatacenter,summaryDatacenter,heq]
  rw [htrue,hfalse] at hsame
  exact absurd hsame (by decide)

end Logjam.Exporter.ActionRegistry
