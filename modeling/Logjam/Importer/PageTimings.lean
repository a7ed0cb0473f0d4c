import Logjam.Basic.Decimal
import Logjam.Exporter.FrontendMetrics

/-! The phases of an accepted page. Only five of the timings are compared with each other before a page
is accepted, and a timing of zero is not made relative, so not every phase has to be positive. -/
namespace Logjam.Importer
open Logjam.Exporter (Timings baseOf relative InOrder timingsOf addMetrics lookup_addMetrics convert_accepted_iff
  convert_request)

inductive StatsdUpdate
  | increment (name : Bytes)
  | timing (name : Bytes) (ms : ℕ)

def StatsdUpdate.ms : StatsdUpdate → Option ℕ
  | .increment _ => none
  | .timing _ ms => some ms

/-- The times in mtimes are those in the message. They are passed on as unsigned numbers. -/
def sendStatsdUpdatesForPage (envapp : Bytes) (mtimes : Timings) (satisfaction : Bytes) : List StatsdUpdate :=
  let name (metric : Bytes) := snprintf 1024 (envapp ++ lit ".page." ++ metric)
  .increment (name satisfaction)::.increment (name (lit "sum"))::
    mtimes.members.map fun m => .timing (name m.1) (sizeOfInt m.2)

/-- The message has the times under their names. -/
def Reports (request : JObject) (times : Timings) : Prop :=
  ∀ m ∈ times.members,request.lookup m.1 = some (.int m.2)

/-- The phases make up the page time, and statsd gets the times as they are. -/
structure Meaningful (times : Timings) : Prop where
  sum_eq : times.navigationTime+times.connectTime+times.requestTime+times.responseTime+
    times.processingTime+times.loadTime = times.pageTime
  nonneg : ∀ m ∈ times.members,0 ≤ m.2
  statsd_eq : ∀ envapp satisfaction,
    ((sendStatsdUpdatesForPage envapp times satisfaction).filterMap StatsdUpdate.ms).map Nat.cast =
      times.members.map Prod.snd

/-- A timing since the start of the navigation. What has not been measured counts as zero. -/
def sinceStart (timings : List ℤ) (i : ℕ) : ℤ :=
  if timings.getD i 0 = 0 then 0 else timings.getD i 0-baseOf timings

/-- Fetching starts before the request and not before the navigation, and the load event ends last. -/
def Consecutive (timings : List ℤ) : Prop :=
  0 ≤ sinceStart timings fetchStart ∧ sinceStart timings fetchStart ≤ sinceStart timings requestStart ∧
    sinceStart timings domComplete ≤ sinceStart timings loadEventEnd

instance (timings : List ℤ) : Decidable (Consecutive timings) := by
  unfold Consecutive
  infer_instance

section
variable {timings : List ℤ} (hrange : ∀ t ∈ timings,0 ≤ t ∧ t < 2^62)
include hrange

lemma getD_mem_range (i : ℕ) : 0 ≤ timings.getD i 0 ∧ timings.getD i 0 < 2^62 := by
  rw [List.getD_eq_getElem?_getD]
  cases hi : timings[i]? with
  | none => exact ⟨le_rfl,by norm_num⟩
  | some t => exact hrange t (List.mem_of_getElem? hi)

lemma baseOf_mem_range : 0 ≤ baseOf timings ∧ baseOf timings < 2^62 := by
  unfold Exporter.baseOf
  split <;> exact getD_mem_range hrange _

lemma relative_of_ne_zero {i : ℕ} (hi : i ≠ navigationStart) : relative timings i = sinceStart timings i := by
  have ht := getD_mem_range hrange i
  have hbase := baseOf_mem_range hrange
  have hget : relative timings i =
      if timings.getD i 0 > 0 then toInt64 (timings.getD i 0-baseOf timings) else timings.getD i 0 := by
    rw [Exporter.relative,Exporter.makeRelative,List.getD_eq_getElem?_getD,List.getElem?_map,
      List.getElem?_set_ne (Ne.symm hi),List.getD_eq_getElem?_getD]
    cases timings[i]? <;> rfl
  rw [hget,sinceStart]
  split_ifs with hpos hzero hzero
  · omega
  · exact toInt64_of_lt (by omega) (by omega)
  · exact hzero
  · omega

lemma abs_sinceStart_lt (i : ℕ) : -2^62 < sinceStart timings i ∧ sinceStart timings i < 2^62 := by
  have ht := getD_mem_range hrange i
  have hbase := baseOf_mem_range hrange
  unfold sinceStart
  split_ifs <;> constructor <;> omega

/-- No difference of timings overflows. -/
lemma difference_eq {i j : ℕ} (hi : i ≠ navigationStart) (hj : j ≠ navigationStart) :
    toInt64 (relative timings i-relative timings j) = sinceStart timings i-sinceStart timings j := by
  have hlow := abs_sinceStart_lt hrange i
  have hhigh := abs_sinceStart_lt hrange j
  rw [relative_of_ne_zero hrange hi,relative_of_ne_zero hrange hj]
  exact toInt64_of_lt (by omega) (by omega)

lemma timingsOf_relative : timingsOf (relative timings) = {
    navigationTime := sinceStart timings fetchStart
    connectTime := sinceStart timings requestStart-sinceStart timings fetchStart
    requestTime := sinceStart timings responseStart-sinceStart timings requestStart
    responseTime := sinceStart timings responseEnd-sinceStart timings responseStart
    processingTime := sinceStart timings domComplete-sinceStart timings responseEnd
    loadTime := sinceStart timings loadEventEnd-sinceStart timings domComplete
    pageTime := sinceStart timings loadEventEnd
    domInteractive := sinceStart timings domInteractive } := by
  rw [Exporter.timingsOf,difference_eq hrange (by decide) (by decide),difference_eq hrange (by decide) (by decide),
    difference_eq hrange (by decide) (by decide),difference_eq hrange (by decide) (by decide),
    difference_eq hrange (by decide) (by decide),relative_of_ne_zero hrange (by decide),
    relative_of_ne_zero hrange (by decide),relative_of_ne_zero hrange (by decide)]

/-- What the check makes sure of. -/
lemma inOrder_iff : InOrder timings ↔ 0 ≤ relative timings navigationStart ∧
    0 < sinceStart timings domInteractive ∧ relative timings navigationStart ≤ sinceStart timings requestStart ∧
    sinceStart timings requestStart ≤ sinceStart timings responseStart ∧
    sinceStart timings responseStart ≤ sinceStart timings responseEnd ∧
    sinceStart timings responseEnd ≤ sinceStart timings domComplete := by
  rw [Exporter.InOrder,relative_of_ne_zero hrange (by decide : domInteractive ≠ navigationStart),
    relative_of_ne_zero hrange (by decide : requestStart ≠ navigationStart),
    relative_of_ne_zero hrange (by decide : responseStart ≠ navigationStart),
    relative_of_ne_zero hrange (by decide : responseEnd ≠ navigationStart),
    relative_of_ne_zero hrange (by decide : domComplete ≠ navigationStart)]

end

lemma reports_unique {request : JObject} {a b : Timings} (ha : Reports request a) (hb : Reports request b) :
    a = b := by
  cases a
  cases b
  simp only [Reports,Timings.members,List.forall_mem_cons] at ha hb
  simp_all

lemma statsd_of_nonneg {times : Timings} (hlow : ∀ m ∈ times.members,0 ≤ m.2)
    (hhigh : ∀ m ∈ times.members,m.2 < 2^64) (envapp satisfaction : Bytes) :
    ((sendStatsdUpdatesForPage envapp times satisfaction).filterMap StatsdUpdate.ms).map Nat.cast =
      times.members.map Prod.snd := by
  have hsent : (sendStatsdUpdatesForPage envapp times satisfaction).filterMap StatsdUpdate.ms =
      times.members.map fun m => sizeOfInt m.2 := rfl
  rw [hsent,List.map_map]
  refine List.map_congr_left fun m hm => ?_
  change (sizeOfInt m.2 : ℤ) = m.2
  rw [sizeOfInt_of_nonneg (hlow m hm) (hhigh m hm),Int.toNat_of_nonneg (hlow m hm)]

lemma members_nonneg_iff (times : Timings) : (∀ m ∈ times.members,0 ≤ m.2) ↔
    0 ≤ times.navigationTime ∧ 0 ≤ times.connectTime ∧ 0 ≤ times.requestTime ∧ 0 ≤ times.responseTime ∧
      0 ≤ times.processingTime ∧ 0 ≤ times.loadTime ∧ 0 ≤ times.pageTime ∧ 0 ≤ times.domInteractive := by
  simp [Timings.members]

lemma members_lt {timings : List ℤ} (hrange : ∀ t ∈ timings,0 ≤ t ∧ t < 2^62) :
    ∀ m ∈ (timingsOf (relative timings)).members,m.2 < 2^64 := by
  have hbound (i : ℕ) := abs_sinceStart_lt hrange i
  have hdifference (i j : ℕ) : sinceStart timings i-sinceStart timings j < 2^64 := by
    have hi := hbound i
    have hj := hbound j
    omega
  have hsingle (i : ℕ) : sinceStart timings i < 2^64 := (hbound i).2.trans (by norm_num)
  rw [timingsOf_relative hrange]
  simp only [Timings.members,List.forall_mem_cons,hdifference,hsingle,true_and]
  exact List.forall_mem_nil _

lemma meaningful_iff {timings : List ℤ} (hrange : ∀ t ∈ timings,0 ≤ t ∧ t < 2^62) (horder : InOrder timings) :
    Meaningful (timingsOf (relative timings)) ↔ Consecutive timings := by
  have hlt := members_lt hrange
  have hchecked := (inOrder_iff hrange).mp horder
  have hnonneg : (∀ m ∈ (timingsOf (relative timings)).members,0 ≤ m.2) ↔ Consecutive timings := by
    rw [members_nonneg_iff,timingsOf_relative hrange,Consecutive]
    dsimp only
    omega
  constructor
  · exact fun h => hnonneg.mp h.nonneg
  · intro h
    refine ⟨?_,hnonneg.mpr h,statsd_of_nonneg (hnonneg.mpr h) hlt⟩
    rw [timingsOf_relative hrange]
    dsimp only
    ring

/-- The times of an accepted page make sense exactly if its first and its last phase are in order too,
of which the check knows nothing. -/
theorem convertFrontendTimingsToJson_meaningful_iff (request : JObject) (timings : List ℤ)
    (hrange : ∀ t ∈ timings,0 ≤ t ∧ t < 2^62)
    (haccepted : (convertFrontendTimingsToJson request timings).1 = .accepted) :
    (∃ times,Reports (convertFrontendTimingsToJson request timings).2.2 times ∧ Meaningful times) ↔
      Consecutive timings := by
  have horder := (convert_accepted_iff.mp haccepted).2
  have hreports : Reports (convertFrontendTimingsToJson request timings).2.2 (timingsOf (relative timings)) := by
    rw [convert_request haccepted]
    exact fun m hm => lookup_addMetrics _ hm
  rw [← meaningful_iff hrange horder]
  constructor
  · rintro ⟨times,htimes,hmeaningful⟩
    rwa [reports_unique hreports htimes]
  · exact fun h => ⟨_,hreports,h⟩

/-- A complete set of timings. -/
def sampleTimings : List ℤ := [1000,1005,1010,1015,1015,1020,1020,1200,1210,1215,1300,1310,1320,1400,1405,1410]

theorem sampleTimings_meaningful :
    ∃ times,Reports (convertFrontendTimingsToJson [] sampleTimings).2.2 times ∧ Meaningful times :=
  (convertFrontendTimingsToJson_meaningful_iff [] sampleTimings (by decide) (by decide)).mpr (by decide)

/-- The navigation starts after fetching: the navigation time is negative. -/
def lateNavigation : List ℤ := [1010,1005,1010,1015,1015,1020,1020,1200,1210,1215,1300,1310,1320,1400,1405,1410]

theorem lateNavigation_meaningless :
    (convertFrontendTimingsToJson [] lateNavigation).1 = .accepted ∧ (∀ t ∈ lateNavigation,0 ≤ t ∧ t < 2^62) ∧
      lateNavigation.length = 16 ∧
      (convertFrontendTimingsToJson [] lateNavigation).2.2.lookup (lit "navigation_time") = some (.int (-5)) ∧
      ¬∃ times,Reports (convertFrontendTimingsToJson [] lateNavigation).2.2 times ∧ Meaningful times := by
  have htime : (convertFrontendTimingsToJson [] lateNavigation).2.2.lookup (lit "navigation_time") =
      some (.int (-5)) := rfl
  refine ⟨by decide,by decide,rfl,htime,?_⟩
  rintro ⟨times,hreports,hmeaningful⟩
  have hmem : (lit "navigation_time",times.navigationTime) ∈ times.members := List.mem_cons_self
  have hsame := htime.symm.trans (hreports _ hmem)
  have hnonneg := hmeaningful.nonneg _ hmem
  simp only [Option.some.injEq,Json.int.injEq] at hsame hnonneg
  omega

end Logjam.Importer
