import Logjam.Importer.Conservation
import Logjam.Importer.DropReasons
import Logjam.Importer.RequestWriter
import Logjam.Importer.StatsUpdater

/-! The names of the dynamic counters. They are made from texts of the message and are used as paths in
an update of a MongoDB document, which is refused as a whole if one of its paths is not valid. -/
namespace Logjam.Importer
open Logjam.Library Logjam.Library.MergeMap

variable {n : ℕ} {env : Env n} {info : StreamInfo} {lib : JsonLib} {incs : Increments n}

/-- A group and a name in it, with one dot between them. -/
def CounterPath (key : Bytes) : Prop :=
  ∃ group name,key = group ++ 46::name ∧ group ≠ [] ∧ name ≠ [] ∧ 46 ∉ group ++ name ∧ 36 ∉ group ++ name

def DottedPrefix (a b : Bytes) : Prop := ∃ rest,b = a ++ 46::rest

/-- What MongoDB asks of the counters in an update. -/
structure ValidCounters (res : Resources n) (incs : Increments n) : Prop where
  paths : ∀ key ∈ incs.others,CounterPath key
  apart : ∀ key ∈ incs.others,∀ field ∈ (incrementsToBson res incs).incs,¬DottedPrefix key field.1

/-- The elements of a member that is an array. -/
def elementsOf (body : JObject) (name : Bytes) : List Json :=
  match body.lookup name with
  | some (.arr xs) => xs
  | _ => []

/-- The hard and the soft exceptions of a message. -/
def Message.exceptions : Message → List Json
  | .request body => elementsOf body (lit "exceptions") ++ elementsOf body (lit "soft_exceptions")
  | _ => []

/-! Paths. -/

/-- Texts that do not interfere with the structure of a path. -/
def Plain (s : Bytes) : Prop := 46 ∉ s ∧ 36 ∉ s

instance (s : Bytes) : Decidable (Plain s) := inferInstanceAs (Decidable (_ ∧ _))

lemma plain_append {a b : Bytes} : Plain (a ++ b) ↔ Plain a ∧ Plain b := by
  simp only [Plain,List.mem_append,not_or]
  tauto

lemma counterPath_of_plain {group name : Bytes} (hgroup : Plain group) (hne : group ≠ []) (hname : Plain name)
    (hnamed : name ≠ []) : CounterPath (group ++ lit "." ++ name) := by
  obtain ⟨hdot,hdollar⟩ := plain_append.mpr ⟨hgroup,hname⟩
  exact ⟨group,name,List.append_assoc group (lit ".") name,hne,hnamed,hdot,hdollar⟩

lemma CounterPath.count {key : Bytes} (h : CounterPath key) : key.count 46 = 1 := by
  obtain ⟨group,name,rfl,-,-,hdot,-⟩ := h
  rw [List.mem_append,not_or] at hdot
  rw [List.count_append,List.count_cons_self,List.count_eq_zero.mpr hdot.1,List.count_eq_zero.mpr hdot.2]

/-- The name is not empty. -/
lemma CounterPath.getLast?_ne {key : Bytes} (h : CounterPath key) : key.getLast? ≠ some 46 := by
  obtain ⟨group,name,rfl,-,hne,hdot,-⟩ := h
  intro hlast
  rw [show group ++ 46::name = (group ++ [46]) ++ name by simp,List.getLast?_append_of_ne_nil _ hne] at hlast
  exact hdot (List.mem_append_right _ (List.mem_of_getLast? hlast))

/-- The fields that are no counters have no dots. -/
lemma field_cases {res : Resources n} {field : Bytes × ℚ} (h : field ∈ (incrementsToBson res incs).incs) :
    46 ∉ field.1 ∨ field.1 ∈ incs.others := by
  have hcount {name : Bytes} {count : ℕ} (hfield : field ∈ appendCount name count) : field.1 = name := by
    unfold appendCount at hfield
    split_ifs at hfield
    · rw [List.mem_singleton.mp hfield]
    · exact absurd hfield List.not_mem_nil
  rw [incrementsToBson,List.mem_append,List.mem_append] at h
  rcases h with h | h | h
  · left
    simp only [appendCounts,List.mem_append] at h
    rcases h with h | h | h | h <;> rw [hcount h] <;> decide
  · left
    obtain ⟨i,-,h⟩ := List.mem_flatMap.mp h
    simp only [appendMetric] at h
    split_ifs at h
    · simp only [List.mem_cons,List.not_mem_nil,or_false] at h
      rcases h with rfl | rfl
      · exact res.no_dot i
      · rw [Resources.intToResourceSq,List.mem_append,not_or]
        exact ⟨res.no_dot i,by decide⟩
    · exact absurd h List.not_mem_nil
  · right
    obtain ⟨e,he,rfl⟩ := List.mem_map.mp h
    exact (Std.ExtTreeMap.isSome_getElem?_iff_mem).mp (by rw [Std.ExtTreeMap.mem_toList_iff_getElem?_eq_some.mp he]; rfl)

/-- Fields without dots and counters with one dot do not get into the way of a counter. -/
lemma validCounters_iff (res : Resources n) : ValidCounters res incs ↔ ∀ key ∈ incs.others,CounterPath key := by
  refine ⟨ValidCounters.paths,fun h => ⟨h,?_⟩⟩
  rintro key hkey field hfield ⟨rest,hrest⟩
  have htwo : 2 ≤ field.1.count 46 := by
    rw [hrest,List.count_append,List.count_cons_self,(h key hkey).count]
    omega
  rcases field_cases hfield with hdotless | hcounter
  · rw [List.count_eq_zero.mpr hdotless] at htwo
    omega
  · rw [(h field.1 hcounter).count] at htwo
    omega

/-! What the functions that fill in counters add. -/

def Paths (incs : Increments n) : Prop := ∀ key ∈ incs.others,CounterPath key

lemma paths_countOne {key : Bytes} : Paths (incs.countOne key) ↔ Paths incs ∧ CounterPath key := by
  have hmem (k : Bytes) : k ∈ (incs.countOne key).others ↔ key = k ∨ k ∈ incs.others := by
    rw [Increments.countOne,Std.ExtTreeMap.mem_insert,Std.compare_eq_iff_eq]
  constructor
  · intro h
    exact ⟨fun k hk => h k ((hmem k).mpr (.inr hk)),h key ((hmem key).mpr (.inl rfl))⟩
  · rintro ⟨h,hkey⟩ k hk
    rcases (hmem k).mp hk with rfl | hk
    · exact hkey
    · exact h k hk

lemma paths_fillApdexGroup (group : Bytes) (hgroup : Plain group) (hne : group ≠ [])
    (happy satisfied tolerating time : ℚ) :
    Paths (fillApdexGroup group happy satisfied tolerating incs time).1 ↔ Paths incs := by
  have hpath (name : Bytes) (hname : Plain name) (hnamed : name ≠ []) : CounterPath (group ++ (lit "." ++ name)) := by
    rw [← List.append_assoc]
    exact counterPath_of_plain hgroup hne hname hnamed
  have hhappy : CounterPath (group ++ lit ".happy") := hpath (lit "happy") (by decide) (by decide)
  have hsatisfied : CounterPath (group ++ lit ".satisfied") := hpath (lit "satisfied") (by decide) (by decide)
  have htolerating : CounterPath (group ++ lit ".tolerating") := hpath (lit "tolerating") (by decide) (by decide)
  have hfrustrated : CounterPath (group ++ lit ".frustrated") := hpath (lit "frustrated") (by decide) (by decide)
  unfold fillApdexGroup
  split_ifs <;> simp only [paths_countOne,hhappy,hsatisfied,htolerating,hfrustrated,and_true]

lemma plain_decimalInt (z : ℤ) : Plain (decimalInt z) := by
  have hdecimal (m : ℕ) : Plain (decimal m) := ⟨notMem_decimal m (by decide),notMem_decimal m (by decide)⟩
  cases z with
  | ofNat m => exact hdecimal m
  | negSucc m => exact plain_append.mpr ⟨by decide,hdecimal (m+1)⟩

/-- Numbers are written after the name of their group. -/
lemma counterPath_number (group : Bytes) (hgroup : Plain group) (hne : group ≠ []) (hlength : group.length < 254) (z : ℤ) :
    CounterPath (snprintf 256 (group ++ lit "." ++ decimalInt z)) := by
  have hnonempty : decimalInt z ≠ [] := by
    cases z with
    | ofNat m => exact decimal_ne_nil m
    | negSucc m => exact List.append_ne_nil_of_left_ne_nil (by decide) _
  have hdot : (group ++ lit ".").length = group.length+1 := List.length_append
  have htext : snprintf 256 (group ++ lit "." ++ decimalInt z) =
      group ++ lit "." ++ (decimalInt z).take (254-group.length) := by
    rw [snprintf,List.take_append,List.take_of_length_le (by omega),hdot]
    congr 2
    omega
  rw [htext]
  refine counterPath_of_plain hgroup hne ?_ ?_
  · exact ⟨fun hmem => (plain_decimalInt z).1 (List.mem_of_mem_take hmem),
      fun hmem => (plain_decimalInt z).2 (List.mem_of_mem_take hmem)⟩
  · rw [ne_eq,List.take_eq_nil_iff,not_or]
    exact ⟨by omega,hnonempty⟩

lemma paths_fillPeerInfo (lib : JsonLib) (action id group separator : Bytes) (hgroup : Plain group) (hne : group ≠ [])
    (hseparator : Plain separator) (hseparated : separator ≠ []) (request : JObject) :
    Paths (fillPeerInfo lib action id (group ++ lit ".") separator incs request) ↔ Paths incs := by
  have hpath (app peer : Bytes) : CounterPath (group ++ lit "." ++ copyReplaceDotsAndDollars app ++ separator ++
      copyReplaceDotsAndDollars peer) := by
    rw [List.append_assoc,List.append_assoc]
    refine counterPath_of_plain hgroup hne ?_ ?_
    · exact plain_append.mpr ⟨copyReplaceDotsAndDollars_plain app,
        plain_append.mpr ⟨hseparator,copyReplaceDotsAndDollars_plain peer⟩⟩
    · exact List.append_ne_nil_of_right_ne_nil _ (List.append_ne_nil_of_left_ne_nil hseparated _)
  unfold fillPeerInfo
  split
  · split
    · rw [paths_countOne]
      exact and_iff_left (hpath _ _)
    · exact Iff.rfl
  · exact Iff.rfl

lemma plain_replaceDotsAndDollars (s : Bytes) : Plain (replaceDotsAndDollars s) := by
  constructor <;> intro hmem <;> obtain ⟨c,-,hc⟩ := List.mem_map.mp hmem <;> split_ifs at hc with hspecial
  · exact absurd hc (by decide)
  · exact hspecial (.inl hc)
  · exact absurd hc (by decide)
  · exact hspecial (.inr hc)

/-- An exception needs a text, and that is all it needs. -/
lemma counterPath_exception {group s : Bytes} (hgroup : Plain group) (hne : group ≠ []) :
    CounterPath (group ++ lit "." ++ replaceDotsAndDollars s) ↔ s ≠ [] := by
  constructor
  · rintro h rfl
    refine h.getLast?_ne ?_
    rw [show replaceDotsAndDollars [] = [] from rfl,List.append_nil]
    exact List.getLast?_concat
  · intro hs
    exact counterPath_of_plain hgroup hne (plain_replaceDotsAndDollars s) (by simpa [replaceDotsAndDollars] using hs)

lemma paths_fillExceptionGroup {group : Bytes} (hgroup : Plain group) (hne : group ≠ []) {xs : List Json}
    {filled : Increments n} (h : fillExceptionGroup lib (group ++ lit ".") incs (some (.arr xs)) = .ok filled) :
    Paths filled ↔ Paths incs ∧ ∀ x ∈ xs,jsonObjectGetString lib x ≠ some [] := by
  have hloop : xs.foldlM (fun incs x => do
      let s ← jsonString lib x
      return Increments.countOne incs (group ++ lit "." ++ replaceDotsAndDollars s)) incs = .ok filled := h
  clear h
  induction xs generalizing incs with
  | nil =>
    obtain rfl := Except.ok.inj hloop
    simp
  | cons x xs ih =>
    rw [List.foldlM_cons] at hloop
    obtain ⟨counted,hcounted,hrest⟩ := bind_eq_ok_iff.mp hloop
    obtain ⟨s,hs,hcounted⟩ := bind_eq_ok_iff.mp hcounted
    obtain rfl := Except.ok.inj hcounted
    have htext : jsonObjectGetString lib x = some s := by
      unfold jsonString at hs
      cases hx : jsonObjectGetString lib x with
      | none => simp [hx] at hs
      | some t => simpa [hx] using hs
    refine (ih hrest).trans ?_
    rw [paths_countOne,counterPath_exception hgroup hne,List.forall_mem_cons,htext,ne_eq,ne_eq,
      Option.some.injEq,and_assoc]

/-- What is found in a message, or left out if there is nothing in it. -/
def GroupOf (exceptions : Option Json) (xs : List Json) : Prop :=
  (exceptions = none ∧ xs = []) ∨ exceptions = some (.arr xs)

lemma GroupOf.paths {exceptions : Option Json} {xs : List Json} (hxs : GroupOf exceptions xs) (group : Bytes)
    (hgroup : Plain group) (hne : group ≠ []) {filled : Increments n}
    (h : fillExceptionGroup lib (group ++ lit ".") incs exceptions = .ok filled) :
    Paths filled ↔ Paths incs ∧ ∀ x ∈ xs,jsonObjectGetString lib x ≠ some [] := by
  rcases hxs with ⟨rfl,rfl⟩ | rfl
  · obtain rfl := Except.ok.inj h
    simp
  · exact paths_fillExceptionGroup hgroup hne h

/-- Whatever else is in a request, its counters have proper paths if its exceptions have texts. -/
lemma paths_backendIncrements {request : JObject} {totalTime : ℚ} {responseCode severity : ℤ} {hard soft : Option Json}
    {xs ys : List Json} (hxs : GroupOf hard xs) (hys : GroupOf soft ys)
    (h : backendIncrements env request totalTime responseCode severity hard soft = .ok incs) :
    Paths incs ↔ ∀ x ∈ xs ++ ys,jsonObjectGetString env.json x ≠ some [] := by
  obtain ⟨filled,hhard,hsoft⟩ := bind_eq_ok_iff.mp h
  have hempty : Paths (incrementsFillMetrics env.json env.res { (incrementsNew : Increments n) with
      backendRequestCount := 1 } request) := fun key hkey => absurd hkey Std.ExtTreeMap.not_mem_empty
  have hapdex := (paths_fillApdexGroup (lit "apdex") (by decide) (by decide) 100 500 2000 totalTime).mpr hempty
  have hcode := counterPath_number (lit "response") (by decide) (by decide) (by decide) responseCode
  have hseverity := counterPath_number (lit "severity") (by decide) (by decide) (by decide) severity
  have hnumbers := paths_countOne.mpr ⟨paths_countOne.mpr ⟨hapdex,hcode⟩,hseverity⟩
  have hcaller := (paths_fillPeerInfo env.json (lit "caller_action") (lit "caller_id") (lit "callers") (lit "@")
    (by decide) (by decide) (by decide) (by decide) request).mpr hnumbers
  have hsender := (paths_fillPeerInfo env.json (lit "sender_action") (lit "sender_id") (lit "senders") (lit "-")
    (by decide) (by decide) (by decide) (by decide) request).mpr hcaller
  have hpaths := hxs.paths (lit "exceptions") (by decide) (by decide) hhard
  rw [hys.paths (lit "soft_exceptions") (by decide) (by decide) hsoft,hpaths,List.forall_mem_append]
  exact and_congr_left fun _ => and_iff_right hsender

/-! The messages. -/

lemma groupOf_setup {request patched : JObject} {name : Bytes} {exceptions : Option Json}
    (h : setupExceptionGroup request name = .ok (exceptions,patched)) : GroupOf exceptions (elementsOf request name) := by
  unfold setupExceptionGroup at h
  unfold elementsOf
  cases hlookup : request.lookup name with
  | none =>
    rw [hlookup] at h
    exact .inl ⟨(Prod.mk.inj (Except.ok.inj h)).1.symm,rfl⟩
  | some v =>
    rw [hlookup] at h
    obtain ⟨xs,hxs,h⟩ := bind_eq_ok_iff.mp h
    cases v with
    | arr ys =>
      obtain rfl : ys = xs := Except.ok.inj hxs
      split_ifs at h with hnil
      · exact .inl ⟨(Prod.mk.inj (Except.ok.inj h)).1.symm,hnil⟩
      · exact .inr (Prod.mk.inj (Except.ok.inj h)).1.symm
    | _ => cases hxs

section Lookup

variable {request : JObject} {k : Bytes}

lemma processorSetupResponseCode_lookup (lib : JsonLib) (hcode : k ≠ lit "code") (hresponse : k ≠ lit "response_code") :
    (processorSetupResponseCode lib request).2.lookup k = request.lookup k := by
  unfold processorSetupResponseCode
  split
  · rw [JObject.lookup_add,if_neg (Ne.symm hresponse),JObject.lookup_del (Ne.symm hcode)]
  · rw [JObject.lookup_add,if_neg (Ne.symm hresponse)]

lemma processorSetupSeverity_lookup (lib : JsonLib) (hk : k ≠ lit "severity") :
    (processorSetupSeverity lib request).2.lookup k = request.lookup k := by
  unfold processorSetupSeverity
  split
  · rfl
  · rw [JObject.lookup_add,if_neg (Ne.symm hk)]

lemma processorSetupTime_lookup (lib : JsonLib) {name : Bytes} (hk : k ≠ name) :
    (processorSetupTime lib request name none).2.lookup k = request.lookup k := by
  unfold processorSetupTime
  cases request.lookup name with
  | none => exact (JObject.lookup_add _ _ _ _).trans (if_neg (Ne.symm hk))
  | some v =>
    dsimp only
    split_ifs
    · exact (JObject.lookup_add _ _ _ _).trans (if_neg (Ne.symm hk))
    · rfl

lemma setupExceptionGroup_lookup {name : Bytes} {r : Option Json × JObject}
    (h : setupExceptionGroup request name = .ok r) (hk : k ≠ name) : r.2.lookup k = request.lookup k := by
  unfold setupExceptionGroup at h
  split at h
  · obtain rfl := Except.ok.inj h
    rfl
  · obtain ⟨xs,-,h⟩ := bind_eq_ok_iff.mp h
    split_ifs at h
    · obtain rfl := Except.ok.inj h
      exact JObject.lookup_del (Ne.symm hk) request
    · obtain rfl := Except.ok.inj h
      rfl

end Lookup

/-- The steps before the total time leave most members as they are. -/
lemma lookup_before_time {request : JObject} {named : Bytes × JObject} {dated : ℤ × JObject} {k : Bytes}
    (hpage : processorSetupPage lib request = .ok named)
    (hminute : processorSetupMinute lib (processorSetupSeverity lib (processorSetupResponseCode lib named.2).2).2 = .ok dated)
    (hk : k ∉ [lit "action",lit "logjam_action",lit "page",lit "code",lit "response_code",lit "severity",lit "minute"]) :
    dated.2.lookup k = request.lookup k := by
  simp only [List.mem_cons,List.not_mem_nil,or_false,not_or] at hk
  obtain ⟨haction,hlogjam,hname,hcode,hresponse,hseverity,hmin⟩ := hk
  rw [processorSetupMinute_lookup hminute hmin,processorSetupSeverity_lookup _ hseverity,
    processorSetupResponseCode_lookup _ hcode hresponse,(processorSetupPage_eq_ok hpage).2 k haction hlogjam hname]

/-- The steps before the exceptions change the total time in addition. -/
lemma lookup_before_exceptions {request : JObject} {named : Bytes × JObject} {dated : ℤ × JObject} {k : Bytes}
    (hpage : processorSetupPage lib request = .ok named)
    (hminute : processorSetupMinute lib (processorSetupSeverity lib (processorSetupResponseCode lib named.2).2).2 = .ok dated)
    (hk : k ∉ [lit "action",lit "logjam_action",lit "page",lit "code",lit "response_code",lit "severity",lit "minute"])
    (htime : k ≠ lit "total_time") :
    (processorSetupTime lib dated.2 (lit "total_time") none).2.lookup k = request.lookup k := by
  rw [processorSetupTime_lookup _ htime,lookup_before_time hpage hminute hk]

lemma requestFiling_exceptions {request : JObject} {f : Filing n} (h : requestFiling env info request = .ok (some f)) :
    ∃ patched totalTime responseCode severity hard soft,GroupOf hard (elementsOf request (lit "exceptions")) ∧
      GroupOf soft (elementsOf request (lit "soft_exceptions")) ∧
      backendIncrements env patched totalTime responseCode severity hard soft = .ok f.incs := by
  unfold requestFiling at h
  dsimp only at h
  split_ifs at h
  · cases h
  obtain ⟨named,hpage,h⟩ := bind_eq_ok_iff.mp h
  obtain ⟨module,-,h⟩ := bind_eq_ok_iff.mp h
  obtain ⟨dated,hminute,h⟩ := bind_eq_ok_iff.mp h
  obtain ⟨hard,hhard,h⟩ := bind_eq_ok_iff.mp h
  obtain ⟨soft,hsoft,h⟩ := bind_eq_ok_iff.mp h
  obtain ⟨timed,-,h⟩ := bind_eq_ok_iff.mp h
  obtain ⟨incs,hincs,h⟩ := bind_eq_ok_iff.mp h
  obtain rfl := Option.some.inj (Except.ok.inj h)
  have hgroup {k : Bytes} {p q : JObject} (hk : p.lookup k = q.lookup k) : elementsOf p k = elementsOf q k := by
    rw [elementsOf,elementsOf,hk]
  have hhardOf := groupOf_setup hhard
  have hsoftOf := groupOf_setup hsoft
  rw [hgroup (lookup_before_exceptions hpage hminute (by decide) (by decide))] at hhardOf
  rw [hgroup ((setupExceptionGroup_lookup hhard (by decide)).trans (lookup_before_exceptions hpage hminute (by decide) (by decide)))] at hsoftOf
  exact ⟨_,_,_,_,hard.1,soft.1,hhardOf,hsoftOf,hincs⟩

lemma frontendFiling_paths {clock : Clock} {incs : JObject → ℚ → Increments n} (hincs : ∀ r t,Paths (incs r t))
    (request : JObject) : Ensures (frontendFiling env clock incs request) fun filing => ∀ f ∈ filing,Paths f.incs := by
  unfold frontendFiling
  refine (ensures_true _).bind fun named _ => (ensures_true _).bind fun module _ => (ensures_true _).bind fun dated _ => ?_
  refine Ensures.ite (fun _ => Ensures.ok fun f hf => absurd hf (Option.not_mem_none f)) fun _ => Ensures.ok fun f hf => ?_
  obtain rfl := Option.some.inj hf
  exact hincs _ _

/-- The counters of pages and ajax requests have fixed names. -/
lemma paths_frontend {counts : Increments n} (hempty : counts.others = ∅) (request : JObject) (totalTime time : ℚ)
    (group : Bytes) (hgroup : Plain group) (hne : group ≠ []) :
    Paths (fillApdexGroup group 500 2000 8000
      (incrementsFillFrontendApdex (incrementsFillMetrics env.json env.res counts request) totalTime).1 time).1 := by
  have hcounts : Paths (incrementsFillMetrics env.json env.res counts request) := by
    intro key hkey
    rw [show (incrementsFillMetrics env.json env.res counts request).others = ∅ from hempty] at hkey
    exact absurd hkey Std.ExtTreeMap.not_mem_empty
  rw [paths_fillApdexGroup group hgroup hne]
  exact (paths_fillApdexGroup (lit "fapdex") (by decide) (by decide) 500 2000 8000 totalTime).mpr hcounts

lemma pageFiling_paths (request : JObject) (tracked : Bool) :
    Ensures (pageFiling env request tracked) fun filing => ∀ f ∈ filing,Paths f.incs := by
  unfold pageFiling
  refine (ensures_true _).bind fun timings _ => ?_
  cases timings with
  | none => exact Ensures.ok fun f hf => absurd hf (Option.not_mem_none f)
  | some timings =>
    refine Ensures.ite (fun _ => Ensures.ok fun f hf => absurd hf (Option.not_mem_none f)) fun _ => ?_
    refine Ensures.ite (fun _ => Ensures.ok fun f hf => absurd hf (Option.not_mem_none f)) fun _ => ?_
    exact frontendFiling_paths (fun r t => paths_frontend rfl r t _ (lit "papdex") (by decide) (by decide)) _

lemma ajaxFiling_paths (request : JObject) (tracked : Bool) :
    Ensures (ajaxFiling env request tracked) fun filing => ∀ f ∈ filing,Paths f.incs := by
  unfold ajaxFiling
  refine (ensures_true _).bind fun timings _ => ?_
  cases timings with
  | none => exact Ensures.ok fun f hf => absurd hf (Option.not_mem_none f)
  | some timings =>
    refine Ensures.ite (fun _ => Ensures.ok fun f hf => absurd hf (Option.not_mem_none f)) fun _ => ?_
    refine Ensures.ite (fun _ => Ensures.ok fun f hf => absurd hf (Option.not_mem_none f)) fun _ => ?_
    exact frontendFiling_paths (fun r t => paths_frontend rfl r t _ (lit "xapdex") (by decide) (by decide)) _

lemma plain_uriReplaceDotsAndDollars (s : Bytes) : Plain (uriReplaceDotsAndDollars s) := by
  constructor <;> intro hmem <;> obtain ⟨c,-,hc⟩ := List.mem_flatMap.mp hmem <;> split_ifs at hc with hdot hdollar
  · exact absurd hc (by decide)
  · exact absurd hc (by decide)
  · exact hdot (List.mem_singleton.mp hc).symm
  · exact absurd hc (by decide)
  · exact absurd hc (by decide)
  · exact hdollar (List.mem_singleton.mp hc).symm

/-- Exceptions of browsers without a text are not accepted. -/
lemma paths_jsExceptionIncrements {description : Bytes} (hne : description ≠ []) :
    Paths (jsExceptionIncrements description : Increments n) := by
  have hnamed : uriReplaceDotsAndDollars description ≠ [] := by
    obtain ⟨c,rest,rfl⟩ := List.exists_cons_of_ne_nil hne
    rw [uriReplaceDotsAndDollars,List.flatMap_cons]
    refine List.append_ne_nil_of_left_ne_nil ?_ _
    split_ifs
    · decide
    · decide
    · exact List.cons_ne_nil c []
  refine paths_countOne.mpr ⟨fun key hkey => absurd hkey Std.ExtTreeMap.not_mem_empty,?_⟩
  have hgroup : Plain (lit "js_exceptions") := by decide
  exact counterPath_of_plain hgroup (by decide) (plain_uriReplaceDotsAndDollars description) hnamed

lemma jsExceptionFiling_paths (request : JObject) :
    Ensures (jsExceptionFiling env request) fun filing => ∀ f ∈ filing,Paths f.incs := by
  unfold jsExceptionFiling
  refine (ensures_true _).bind fun page _ => (ensures_true _).bind fun description _ => ?_
  refine Ensures.ite (fun _ => Ensures.ok fun f hf => absurd hf (Option.not_mem_none f)) fun hne => ?_
  refine (ensures_true _).bind fun dated _ => (ensures_true _).bind fun module _ => Ensures.ok fun f hf => ?_
  obtain rfl := Option.some.inj hf
  exact paths_jsExceptionIncrements hne

/-- Exceptions are the only texts of a message that can make a path improper. -/
theorem Message.paths_iff {message : Message} {f : Filing n} (h : message.filing env info = .ok (some f)) :
    Paths f.incs ↔ ∀ x ∈ message.exceptions,jsonObjectGetString env.json x ≠ some [] := by
  have hnone {p : Json → Prop} : ∀ x ∈ ([] : List Json),p x := List.forall_mem_nil p
  cases message with
  | request body =>
    obtain ⟨patched,totalTime,responseCode,severity,hard,soft,hhard,hsoft,hincs⟩ := requestFiling_exceptions h
    exact paths_backendIncrements hhard hsoft hincs
  | page body tracked => exact iff_of_true (pageFiling_paths body tracked _ h f rfl) hnone
  | ajax body tracked => exact iff_of_true (ajaxFiling_paths body tracked _ h f rfl) hnone
  | jsException body => exact iff_of_true (jsExceptionFiling_paths body _ h f rfl) hnone

/-! The documents of a run. -/

lemma Paths.add {a b : Increments n} (ha : Paths a) (hb : Paths b) : Paths (a+b) := by
  intro key hkey
  rw [Increments.add_others] at hkey
  rcases mem_or_mem_of_mem_add hkey with hkey | hkey
  · exact ha key hkey
  · exact hb key hkey

/-- A message keeps the documents it is added to valid if and only if its exceptions have texts. Without
one, the path of the counter ends with the dot behind the group. The names of metrics have no dot
(Resources.no_dot). -/
theorem Message.keeps_validCounters_iff {message : Message} {f : Filing n}
    (h : message.filing env info = .ok (some f)) :
    (ValidCounters env.res f.incs ∧
      ∀ stored : Increments n,ValidCounters env.res stored → ValidCounters env.res (incrementsAdd stored f.incs)) ↔
      ∀ x ∈ message.exceptions,jsonObjectGetString env.json x ≠ some [] := by
  rw [← message.paths_iff h,validCounters_iff]
  refine ⟨And.left,fun hpaths => ⟨hpaths,fun stored hstored => ?_⟩⟩
  exact (validCounters_iff env.res).mpr (Paths.add hstored.paths hpaths)

/-- A request with one exception. -/
def requestWithException (text : Bytes) : Message :=
  .request [(lit "action",.str (lit "Cart#show")),(lit "exceptions",.arr [.str text])]

lemma filing_eq_of_join {message : Message} {f : Filing n} (h : (message.filing env info).toOption.join = some f) :
    message.filing env info = .ok (some f) := by
  cases hfiling : message.filing env info with
  | error fault =>
    rw [hfiling] at h
    cases h
  | ok filing =>
    rw [hfiling] at h
    exact congrArg Except.ok h

theorem keeps_validCounters_sample :
    ∃ f,(requestWithException (lit "NoMethodError")).filing sampleEnv sampleInfo = .ok (some f) ∧
      ((ValidCounters sampleEnv.res f.incs ∧ ∀ stored : Increments 10,ValidCounters sampleEnv.res stored →
          ValidCounters sampleEnv.res (incrementsAdd stored f.incs)) ↔
        ∀ x ∈ (requestWithException (lit "NoMethodError")).exceptions,jsonObjectGetString sampleEnv.json x ≠ some []) := by
  have haccepted : ((requestWithException (lit "NoMethodError")).filing sampleEnv sampleInfo).toOption.join.isSome := by
    decide +kernel
  obtain ⟨f,hf⟩ := Option.isSome_iff_exists.mp haccepted
  exact ⟨f,filing_eq_of_join hf,Message.keeps_validCounters_iff (filing_eq_of_join hf)⟩

/-- The counter of an exception without a text has no name. -/
theorem requestWithException_empty :
    ∃ f,(requestWithException []).filing sampleEnv sampleInfo = .ok (some f) ∧ lit "exceptions." ∈ f.incs.others ∧
      ¬ValidCounters sampleEnv.res f.incs := by
  have hcounter : ((requestWithException []).filing sampleEnv sampleInfo).toOption.join.map
      (fun f => decide (lit "exceptions." ∈ f.incs.others)) = some true := by decide +kernel
  obtain ⟨f,hjoin,hmem⟩ := Option.map_eq_some_iff.mp hcounter
  have hf := filing_eq_of_join hjoin
  refine ⟨f,hf,of_decide_eq_true hmem,fun hvalid => ?_⟩
  exact (Message.paths_iff hf).mp hvalid.paths (.str []) List.mem_cons_self rfl

end Logjam.Importer
