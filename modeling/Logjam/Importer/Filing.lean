import Logjam.Basic.Decimal
import Logjam.Importer.Processor
import Logjam.Library.Ensures

/-! What a message amounts to: the namespaces and the minute it is filed under, and its increments.
The handlers of the processor first find this out, patching defaults into the message on the way, and
then update the aggregates. -/
namespace Logjam.Importer
open Logjam.Library

/-- The three times of which there are histograms. -/
inductive Clock
  | total
  | page
  | ajax
  deriving DecidableEq

variable {n : ℕ}

def Clock.resource : Clock → Bytes
  | .total => lit "total_time"
  | .page => lit "page_time"
  | .ajax => lit "ajax_time"

def Clock.index (res : Resources n) : Clock → Fin n
  | .total => res.totalTimeIndex
  | .page => res.pageTimeIndex
  | .ajax => res.ajaxTimeIndex

/-- The counter of the requests that have this time. -/
def Clock.requestCount (incs : Increments n) : Clock → ℕ
  | .total => incs.backendRequestCount
  | .page => incs.pageRequestCount
  | .ajax => incs.ajaxRequestCount

/-- The configuration contains the three times. -/
def Resources.Configured (res : Resources n) : Prop :=
  ∀ clock : Clock,res.intToResource (clock.index res) = clock.resource

/-- The namespaces come on top of all_pages, under which everything is filed. -/
structure Filing (n : ℕ) where
  namespaces : List Bytes
  minute : ℤ
  clock : Option Clock
  incs : Increments n

def requestFiling (env : Env n) (info : StreamInfo) (request : JObject) :
    Except Fault (Option (Filing n)) :=
  let path := extractRequestPath env.json request
  if ignoreRequest request path info then .ok none
  else do
    let (page,request) ← processorSetupPage env.json request
    let module ← moduleStr page
    let (responseCode,request) := processorSetupResponseCode env.json request
    let (severity,request) := processorSetupSeverity env.json request
    let (minute,request) ← processorSetupMinute env.json request
    let (totalTime,request) := processorSetupTime env.json request (lit "total_time") none
    let (exceptions,request) ← processorSetupExceptions request
    let (softExceptions,request) ← processorSetupSoftExceptions request
    let request ← processorSetupOtherTime env.json env.res request totalTime
    let request := processorSetupAllocatedMemory env.json request
    let request := adjustCallerInfo env.json path module request info
    let incs ← backendIncrements env request totalTime responseCode severity exceptions softExceptions
    return some ⟨[page,module],minute,some .total,incs⟩

/-- Pages and ajax requests alike, once their timings are in the message. -/
def frontendFiling (env : Env n) (clock : Clock) (incs : JObject → ℚ → Increments n) (request : JObject) :
    Except Fault (Option (Filing n)) := do
  let (page,request) ← processorSetupPage env.json request
  let module ← moduleStr page
  let (minute,request) ← processorSetupMinute env.json request
  let (totalTime,request) :=
    processorSetupTime env.json request clock.resource (some (lit "frontend_time"))
  if totalTime > feMsgOutlierThresholdMs then return none
  else return some ⟨[page,module],minute,some clock,incs request totalTime⟩

def pageFiling (env : Env n) (request : JObject) (tracked : Bool) : Except Fault (Option (Filing n)) := do
  match ← extractFrontendTimings env.json request 16 with
  | none => return none
  | some timings =>
    if !checkFrontendRequestValidity env.json request tracked then return none
    else
      let (reason,timings,request) := convertFrontendTimingsToJson request timings
      if reason ≠ .accepted then return none
      else
        let incs request totalTime := pageIncrements env request totalTime timings
        frontendFiling env .page incs request

def ajaxFiling (env : Env n) (request : JObject) (tracked : Bool) : Except Fault (Option (Filing n)) := do
  match ← extractFrontendTimings env.json request 2 with
  | none => return none
  | some timings =>
    if !checkFrontendRequestValidity env.json request tracked then return none
    else
      let ajaxTime := toInt64 (timings.getD 1 0-timings.getD 0 0)
      if ajaxTime < 0 then return none
      else frontendFiling env .ajax (ajaxIncrements env) (request.add (lit "ajax_time") (.int ajaxTime))

/-- An exception without a known action is filed for the module only. -/
def jsExceptionFiling (env : Env n) (request : JObject) : Except Fault (Option (Filing n)) := do
  let page ← extractPageForJse env.json request
  let jsException ← exctractKeyFromJseDescription env.json request
  if jsException = [] then return none
  let (minute,_) ← processorSetupMinute env.json request
  let module ← moduleStr page
  let pages := if strstr page (lit "#unknown_method") = none then [page] else []
  let modules := if module ≠ lit "Unknown" then [module] else []
  return some ⟨pages ++ modules,minute,none,jsExceptionIncrements jsException⟩

/-- What the aggregates rely on. -/
structure Filing.Sound (env : Env n) (filing : Filing n) : Prop where
  namespaces_ne : ∀ ns ∈ filing.namespaces,ns ≠ lit "all_pages"
  minute_mem : filing.minute ∈ Set.Ico (-2^31) (2^31)
  requestCount_eq : ∀ clock : Clock,clock.requestCount filing.incs = if filing.clock = some clock then 1 else 0
  time_ne_zero : ∀ clock ∈ filing.clock,(filing.incs.metrics (clock.index env.res)).val ≠ 0

/-! Names. A page has a hash sign and a module begins with colons, so neither is all_pages. -/

lemma mem_of_strchr {s : Bytes} {c : UInt8} (h : strchr s c ≠ none) : c ∈ s := by
  by_contra hc
  refine h (List.findIdx?_eq_none_iff.mpr fun x hx => ?_)
  exact beq_false_of_ne fun heq => hc (heq ▸ hx)

lemma ne_allPages_of_mem {page : Bytes} (h : 35 ∈ page) : page ≠ lit "all_pages" := by
  rintro rfl
  exact absurd h (by decide)

lemma mem_of_completePage {page longer : Bytes} (h : completePage page = some longer) : 35 ∈ longer := by
  unfold completePage at h
  split_ifs at h with _ _ hlast
  · exact Option.some.inj h ▸ List.mem_append_right _ (by decide)
  · exact Option.some.inj h ▸ List.mem_append_right _ (by decide)
  · exact Option.some.inj h ▸ List.mem_append_left _ (List.mem_of_getLast? hlast)

lemma mem_of_completePage_eq_none {page : Bytes} (h : completePage page = none) : 35 ∈ page := by
  refine mem_of_strchr fun hnone => ?_
  unfold completePage at h
  rw [if_pos hnone] at h
  split_ifs at h

lemma processorSetupPage_ne (lib : JsonLib) (request : JObject) :
    Ensures (processorSetupPage lib request) fun r => r.1 ≠ lit "all_pages" := by
  unfold processorSetupPage
  refine (ensures_true _).bind fun page _ => ?_
  split
  · next longer h => exact Ensures.ok (ne_allPages_of_mem (mem_of_completePage h))
  · next h => exact Ensures.ok (ne_allPages_of_mem (mem_of_completePage_eq_none h))

section

variable {lib : JsonLib} {request : JObject} {page : Bytes}

/-- There is a hash sign, and something behind the last one. -/
def Normalised (page : Bytes) : Prop := 35 ∈ page ∧ page.getLast? ≠ some 35

/-- The empty name is completed differently for an exception, but to a page with a method as well. -/
def jsePage (name : Bytes) : Bytes :=
  if strchr name 35 = none then name ++ lit "#unknown_method"
  else if name.getLast? = some 35 then name ++ lit "unknown_method"
  else name

lemma extractPageForJse_of_none (lib : JsonLib) (h : request.lookup (lit "logjam_action") = none) :
    extractPageForJse lib request = .ok (lit "Unknown#unknown_method") := by
  unfold extractPageForJse
  rw [h]
  rfl

lemma extractPageForJse_of_some {v : Json} (h : request.lookup (lit "logjam_action") = some v) :
    extractPageForJse lib request = .ok page ↔ ∃ name,jsonObjectGetString lib v = some name ∧ jsePage name = page := by
  have hcomplete (name : Bytes) : (if strchr name 35 = none then .ok (name ++ lit "#unknown_method")
      else if name.getLast? = some 35 then .ok (name ++ lit "unknown_method")
      else .ok name : Except Fault Bytes) = .ok (jsePage name) := by
    unfold jsePage
    split_ifs <;> rfl
  unfold extractPageForJse
  rw [h]
  cases hname : jsonObjectGetString lib v with
  | none => simp [jsonString,hname,bind,Except.bind]
  | some name =>
    simp only [jsonString,hname,bind,Except.bind,Option.some.injEq,exists_eq_left']
    exact (Eq.congr_left (hcomplete name)).trans (by rw [Except.ok.injEq])

lemma jsePage_normalised (name : Bytes) : Normalised (jsePage name) := by
  have hsuffix {name suffix : Bytes} (hmem : 35 ∈ name ++ suffix) (hlast : suffix.getLast? = some 100) :
      Normalised (name ++ suffix) := by
    refine ⟨hmem,?_⟩
    rw [List.getLast?_append,hlast]
    exact (by decide : (some 100 : Option UInt8) ≠ some 35)
  unfold jsePage
  split_ifs with hnone hlast
  · exact hsuffix (List.mem_append_right _ (by decide)) rfl
  · exact hsuffix (List.mem_append_left _ (List.mem_of_getLast? hlast)) rfl
  · exact ⟨mem_of_strchr hnone,hlast⟩

lemma extractPageForJse_normalised (h : extractPageForJse lib request = .ok page) : Normalised page := by
  cases hlookup : request.lookup (lit "logjam_action") with
  | none =>
    rw [extractPageForJse_of_none lib hlookup] at h
    exact Except.ok.inj h ▸ ⟨by decide,by decide⟩
  | some v =>
    obtain ⟨name,-,rfl⟩ := (extractPageForJse_of_some hlookup).mp h
    exact jsePage_normalised name

lemma extractPageForJse_ne (lib : JsonLib) (request : JObject) :
    Ensures (extractPageForJse lib request) fun page => page ≠ lit "all_pages" := fun _ h =>
  ne_allPages_of_mem (extractPageForJse_normalised h).1

end

lemma moduleStr_ne (page : Bytes) : Ensures (moduleStr page) fun module => module ≠ lit "all_pages" := by
  have hcolon (rest : Bytes) : lit "::" ++ rest ≠ lit "all_pages" := by
    intro h
    have hhead : some (58 : UInt8) = some 97 := congrArg List.head? h
    exact absurd hhead (by decide)
  refine Ensures.ite (fun _ => Ensures.ok ?_) fun _ => Ensures.error
  split
  · split_ifs
    · exact hcolon _
    · exact hcolon []
  · split
    · exact hcolon _
    · exact hcolon []

/-! The minute. -/

lemma abs_atoi_cstr_le (a b : UInt8) : |atoi (cstr [a,b])| ≤ 99 := by
  have hlength : (cstr [a,b]).length ≤ 2 := (List.takeWhile_prefix _).length_le
  have hlt := (abs_atoi_lt (cstr [a,b])).trans_le (pow_le_pow_right₀ (by decide : (1 : ℤ) ≤ 10) hlength)
  omega

lemma processorSetupMinute_mem (lib : JsonLib) (request : JObject) :
    Ensures (processorSetupMinute lib request) fun r => r.1 ∈ Set.Ico (-2^31) (2^31) := by
  unfold processorSetupMinute
  split
  · exact Ensures.ok ⟨by norm_num,by norm_num⟩
  · refine (ensures_true _).bind fun s _ => ?_
    refine Ensures.ite (fun _ => Ensures.error) fun _ => Ensures.ok ?_
    have hhours := abs_le.mp (abs_atoi_cstr_le (s.getD 11 0) (s.getD 12 0))
    have hminutes := abs_le.mp (abs_atoi_cstr_le (s.getD 14 0) (s.getD 15 0))
    rw [Set.mem_Ico]
    constructor <;> linarith

/-! The times. Defaults are patched into the message for a missing time and for one that is zero, and
nothing that follows touches them. -/

/-- The message has a time other than zero. -/
def HasTime (lib : JsonLib) (request : JObject) (name : Bytes) : Prop :=
  ∃ v,request.lookup name = some v ∧ jsonObjectGetDouble lib v ≠ 0

lemma HasTime.add {lib : JsonLib} {request : JObject} {name : Bytes} (h : HasTime lib request name)
    {key : Bytes} (hkey : key ≠ name) (v : Json) : HasTime lib (request.add key v) name := by
  rw [HasTime,JObject.lookup_add,if_neg hkey]
  exact h

lemma HasTime.del {lib : JsonLib} {request : JObject} {name : Bytes} (h : HasTime lib request name)
    {key : Bytes} (hkey : key ≠ name) : HasTime lib (request.del key) name := by
  rw [HasTime,JObject.lookup_del hkey]
  exact h

lemma hasTime_add_self (lib : JsonLib) (request : JObject) (name : Bytes) {x : ℚ} (hx : x ≠ 0) :
    HasTime lib (request.add name (.double x)) name :=
  ⟨.double x,by rw [JObject.lookup_add,if_pos rfl],hx⟩

lemma processorSetupTime_hasTime (lib : JsonLib) (request : JObject) (name : Bytes)
    (duplicate : Option Bytes) (hname : duplicate ≠ some name) :
    HasTime lib (processorSetupTime lib request name duplicate).2 name := by
  have hnone : HasTime lib (processorSetupTime lib request name none).2 name := by
    unfold processorSetupTime
    cases hv : request.lookup name with
    | none => exact hasTime_add_self lib request name one_ne_zero
    | some v =>
      by_cases hzero : jsonObjectGetDouble lib v = 0
      · simp only [if_pos hzero]
        exact hasTime_add_self lib request name one_ne_zero
      · simp only [if_neg hzero]
        exact ⟨v,hv,hzero⟩
  cases duplicate with
  | none => exact hnone
  | some other => exact hnone.add (fun heq => hname (congrArg some heq)) _

lemma lookup_defaultMember (lib : JsonLib) (request : JObject) {key name : Bytes} (h : key ≠ name) (value : Bytes) :
    (defaultMember lib request key value).lookup name = request.lookup name := by
  unfold defaultMember
  split
  · rfl
  · rw [JObject.lookup_add,if_neg h]

/-- Only the members about the caller are adjusted. -/
lemma lookup_adjustCallerInfo {name : Bytes} (hid : lit "caller_id" ≠ name) (haction : lit "caller_action" ≠ name)
    (lib : JsonLib) (path : Option Bytes) (module : Bytes) (request : JObject) (info : StreamInfo) :
    (adjustCallerInfo lib path module request info).lookup name = request.lookup name := by
  unfold adjustCallerInfo
  split
  · rfl
  · split_ifs
    · rw [lookup_defaultMember _ _ haction,lookup_defaultMember _ _ hid]
    · rfl

section TotalTime

variable {lib : JsonLib} {request : JObject} (h : HasTime lib request (lit "total_time"))
include h

lemma HasTime.setupExceptionGroup {name : Bytes} (hname : name ≠ lit "total_time") :
    Ensures (setupExceptionGroup request name) fun r => HasTime lib r.2 (lit "total_time") := by
  unfold Importer.setupExceptionGroup
  split
  · exact Ensures.ok h
  · exact (ensures_true _).bind fun _ _ => Ensures.ite (fun _ => Ensures.ok (h.del hname)) fun _ => Ensures.ok h

lemma HasTime.setupOtherTime (res : Resources n) (totalTime : ℚ) :
    Ensures (processorSetupOtherTime lib res request totalTime) fun r => HasTime lib r (lit "total_time") :=
  (ensures_true _).bind fun _ _ => Ensures.ok (h.add (by decide) _)

lemma HasTime.setupAllocatedMemory :
    HasTime lib (processorSetupAllocatedMemory lib request) (lit "total_time") := by
  unfold processorSetupAllocatedMemory
  split
  · exact h
  · split
    · exact h.add (by decide) _
    · exact h

lemma HasTime.adjustCallerInfo (path : Option Bytes) (module : Bytes) (info : StreamInfo) :
    HasTime lib (adjustCallerInfo lib path module request info) (lit "total_time") := by
  rw [HasTime,lookup_adjustCallerInfo (by decide) (by decide)]
  exact h

end TotalTime

/-! The increments. Beyond metrics and request counts only dynamic counters are filled in. -/

/-- Increments without their dynamic counters. -/
def Increments.bare (incs : Increments n) : Increments n := { incs with others := ∅ }

lemma bare_fillApdexGroup (group : Bytes) (happy satisfied tolerating : ℚ) (incs : Increments n) (time : ℚ) :
    (fillApdexGroup group happy satisfied tolerating incs time).1.bare = incs.bare := by
  unfold fillApdexGroup
  split_ifs <;> rfl

lemma bare_fillPeerInfo (lib : JsonLib) (action id group separator : Bytes) (incs : Increments n)
    (request : JObject) : (fillPeerInfo lib action id group separator incs request).bare = incs.bare := by
  unfold fillPeerInfo
  split
  · split <;> rfl
  · rfl

lemma bare_fillExceptionGroup (lib : JsonLib) (group : Bytes) (incs : Increments n)
    (exceptions : Option Json) :
    Ensures (fillExceptionGroup lib group incs exceptions) fun filled => filled.bare = incs.bare := by
  unfold fillExceptionGroup
  cases exceptions with
  | none => exact Ensures.ok rfl
  | some v =>
    refine (ensures_true _).bind fun xs _ => Ensures.foldlM (fun filled hfilled x _ => ?_) rfl
    exact (ensures_true _).bind fun s _ => Ensures.ok hfilled

/-- One request of the kind that has this time. -/
def Clock.one : Clock → Increments n
  | .total => { incrementsNew with backendRequestCount := 1 }
  | .page => { incrementsNew with pageRequestCount := 1 }
  | .ajax => { incrementsNew with ajaxRequestCount := 1 }

/-- The increments are one request with the metrics of the message. -/
def Measures (env : Env n) (clock : Clock) (request : JObject) (incs : Increments n) : Prop :=
  incs.bare = incrementsFillMetrics env.json env.res clock.one request

lemma backendIncrements_measures (env : Env n) (request : JObject) (totalTime : ℚ) (responseCode severity : ℤ)
    (exceptions softExceptions : Option Json) :
    Ensures (backendIncrements env request totalTime responseCode severity exceptions softExceptions)
      (Measures env .total request) := by
  unfold backendIncrements
  refine (bare_fillExceptionGroup _ _ _ _).bind fun hard hhard => ?_
  intro incs hincs
  have hsoft := bare_fillExceptionGroup env.json (lit "soft_exceptions.") hard softExceptions incs hincs
  have hsender (incs : Increments n) : (incrementsFillSenderInfo env.json incs request).bare = incs.bare :=
    bare_fillPeerInfo _ _ _ _ _ incs request
  have hcaller (incs : Increments n) : (incrementsFillCallerInfo env.json incs request).bare = incs.bare :=
    bare_fillPeerInfo _ _ _ _ _ incs request
  rw [Measures,hsoft,hhard,hsender,hcaller]
  exact bare_fillApdexGroup _ _ _ _ _ totalTime

lemma pageIncrements_measures (env : Env n) (request : JObject) (totalTime : ℚ) (timings : List ℤ) :
    Measures env .page request (pageIncrements env request totalTime timings) :=
  (bare_fillApdexGroup _ _ _ _ _ _).trans (bare_fillApdexGroup _ _ _ _ _ totalTime)

lemma ajaxIncrements_measures (env : Env n) (request : JObject) (totalTime : ℚ) :
    Measures env .ajax request (ajaxIncrements env request totalTime) :=
  (bare_fillApdexGroup _ _ _ _ _ totalTime).trans (bare_fillApdexGroup _ _ _ _ _ totalTime)

lemma Measures.requestCount_eq {env : Env n} {clock : Clock} {request : JObject} {incs : Increments n}
    (h : Measures env clock request incs) (other : Clock) :
    other.requestCount incs = if some clock = some other then 1 else 0 := by
  have hcount : other.requestCount incs.bare = other.requestCount incs := by cases other <;> rfl
  rw [← hcount,h]
  cases clock <;> cases other <;> rfl

lemma Measures.time_ne_zero {env : Env n} (hconf : env.res.Configured) {clock : Clock} {request : JObject}
    {incs : Increments n} (h : Measures env clock request incs)
    (htime : HasTime env.json request clock.resource) : (incs.metrics (clock.index env.res)).val ≠ 0 := by
  obtain ⟨v,hv,hne⟩ := htime
  have hmetrics : incs.bare.metrics = (incrementsFillMetrics env.json env.res clock.one request).metrics :=
    congrArg Increments.metrics h
  change (incs.bare.metrics (clock.index env.res)).val ≠ 0
  rw [hmetrics]
  simp only [incrementsFillMetrics,hconf clock,hv]
  exact hne

/-- A filing for a page and its module. -/
lemma Measures.sound {env : Env n} (hconf : env.res.Configured) {clock : Clock} {request : JObject}
    {incs : Increments n} (h : Measures env clock request incs)
    (htime : HasTime env.json request clock.resource) {page module : Bytes} (hpage : page ≠ lit "all_pages")
    (hmodule : module ≠ lit "all_pages") {minute : ℤ} (hminute : minute ∈ Set.Ico (-2^31) (2^31)) :
    Filing.Sound env ⟨[page,module],minute,some clock,incs⟩ where
  namespaces_ne ns hns := by
    rcases List.mem_pair.mp hns with rfl | rfl
    · exact hpage
    · exact hmodule
  minute_mem := hminute
  requestCount_eq := h.requestCount_eq
  time_ne_zero other hother := by
    obtain rfl : clock = other := Option.some.inj hother
    exact h.time_ne_zero hconf htime

theorem requestFiling_sound {env : Env n} (hconf : env.res.Configured) (info : StreamInfo)
    (request : JObject) :
    Ensures (requestFiling env info request) fun filing => ∀ f ∈ filing,f.Sound env := by
  unfold requestFiling
  refine Ensures.ite (fun _ => Ensures.ok nofun) fun _ => ?_
  refine (processorSetupPage_ne _ _).bind fun r hpage => (moduleStr_ne _).bind fun module hmodule => ?_
  refine (processorSetupMinute_mem _ _).bind fun r hminute => ?_
  have htime := processorSetupTime_hasTime env.json r.2 (lit "total_time") none nofun
  refine (htime.setupExceptionGroup (by decide)).bind fun r htime => ?_
  refine (htime.setupExceptionGroup (by decide)).bind fun r htime => ?_
  refine (htime.setupOtherTime env.res _).bind fun r htime => ?_
  refine (backendIncrements_measures _ _ _ _ _ _ _).bind fun incs hincs => Ensures.ok ?_
  rintro f hf
  obtain rfl := Option.some.inj hf
  exact hincs.sound hconf (htime.setupAllocatedMemory.adjustCallerInfo _ _ _) hpage hmodule hminute

lemma frontendFiling_sound {env : Env n} (hconf : env.res.Configured) {clock : Clock}
    {incs : JObject → ℚ → Increments n}
    (hincs : ∀ request time,Measures env clock request (incs request time)) (request : JObject) :
    Ensures (frontendFiling env clock incs request) fun filing => ∀ f ∈ filing,f.Sound env := by
  unfold frontendFiling
  refine (processorSetupPage_ne _ _).bind fun r hpage => (moduleStr_ne _).bind fun module hmodule => ?_
  refine (processorSetupMinute_mem _ _).bind fun r hminute => ?_
  have htime := processorSetupTime_hasTime env.json r.2 clock.resource
    (some (lit "frontend_time")) (by cases clock <;> decide)
  refine Ensures.ite (fun _ => Ensures.ok nofun) fun _ => Ensures.ok ?_
  rintro f hf
  obtain rfl := Option.some.inj hf
  exact (hincs _ _).sound hconf htime hpage hmodule hminute

theorem pageFiling_sound {env : Env n} (hconf : env.res.Configured) (request : JObject) (tracked : Bool) :
    Ensures (pageFiling env request tracked) fun filing => ∀ f ∈ filing,f.Sound env := by
  unfold pageFiling
  refine (ensures_true _).bind fun timings _ => ?_
  cases timings with
  | none => exact Ensures.ok nofun
  | some timings =>
    refine Ensures.ite (fun _ => Ensures.ok nofun) fun _ => Ensures.ite (fun _ => Ensures.ok nofun) fun _ => ?_
    exact frontendFiling_sound hconf (fun _ _ => pageIncrements_measures _ _ _ _) _

theorem ajaxFiling_sound {env : Env n} (hconf : env.res.Configured) (request : JObject) (tracked : Bool) :
    Ensures (ajaxFiling env request tracked) fun filing => ∀ f ∈ filing,f.Sound env := by
  unfold ajaxFiling
  refine (ensures_true _).bind fun timings _ => ?_
  cases timings with
  | none => exact Ensures.ok nofun
  | some timings =>
    refine Ensures.ite (fun _ => Ensures.ok nofun) fun _ => Ensures.ite (fun _ => Ensures.ok nofun) fun _ => ?_
    exact frontendFiling_sound hconf (fun _ _ => ajaxIncrements_measures _ _ _) _

theorem jsExceptionFiling_sound (env : Env n) (request : JObject) :
    Ensures (jsExceptionFiling env request) fun filing => ∀ f ∈ filing,f.Sound env := by
  unfold jsExceptionFiling
  refine (extractPageForJse_ne _ _).bind fun page hpage => (ensures_true _).bind fun jsException _ => ?_
  refine Ensures.ite (fun _ => Ensures.ok nofun) fun _ => ?_
  refine (processorSetupMinute_mem _ _).bind fun r hminute => (moduleStr_ne _).bind fun module hmodule => ?_
  refine Ensures.ok fun f hf => ?_
  obtain rfl := Option.some.inj hf
  refine ⟨fun ns hns => ?_,hminute,fun clock => by cases clock <;> rfl,nofun⟩
  rcases List.mem_append.mp hns with hns | hns
  · split_ifs at hns
    · exact List.mem_singleton.mp hns ▸ hpage
    · exact absurd hns List.not_mem_nil
  · split_ifs at hns
    · exact List.mem_singleton.mp hns ▸ hmodule
    · exact absurd hns List.not_mem_nil

end Logjam.Importer
