import Logjam.Importer.Request
import Logjam.Library.Translation

/-! The aggregates a parser keeps for one database, and the four message handlers that update
them. Tracker additions, statsd updates and messages to the request writers are not part of the
aggregates and are left out here. -/
namespace Logjam.Importer
open Logjam.Library.MergeMap Logjam.Library.Translation

@[ext] structure UserAgentStats where
  receivedBackend : ℕ
  receivedFrontend : ℕ
  feDropped : ℕ
  feDropReasons : FeMsgDropReason → ℕ

/-- The maximum size of a histogram stored in mongo. -/
def histogramSize : ℕ := 22

/-- The modules hash maps every name to itself, so only its keys carry information. -/
@[ext] structure Processor (n : ℕ) where
  requestCount : ℕ
  modules : ZHash Unit
  totals : ZHash (Increments n)
  minutes : ZHash (Increments n)
  quants : ZHash (Fin n → ℕ)
  histograms : ZHash (Fin histogramSize → ℕ)
  agents : ZHash UserAgentStats

variable {n : ℕ}

def processorNew : Processor n := ⟨0,∅,∅,∅,∅,∅,∅⟩

def addModule (self : Processor n) (module : Bytes) : Processor n :=
  { self with modules := combineAt (fun stored _ => stored) self.modules module () }

/-- The module name of a page; a new name is entered into the modules hash. -/
def processorSetupModule (self : Processor n) (page : Bytes) : Except Fault (Bytes × Processor n) := do
  let module ← moduleStr page
  return (module,addModule self module)

def processorAddTotals (self : Processor n) (ns : Bytes) (incs : Increments n) : Processor n :=
  { self with totals := combineAt incrementsAdd self.totals ns incs }

def minutesKey (ns : Bytes) (minute : ℤ) : Bytes :=
  snprintf 2000 (decimal (sizeOfInt minute) ++ lit "-" ++ ns)

def processorAddMinutes (self : Processor n) (ns : Bytes) (minute : ℤ) (incs : Increments n) :
    Processor n :=
  { self with minutes := combineAt incrementsAdd self.minutes (minutesKey ns minute) incs }

/-- The bucket bounds, without the terminating zero. -/
def buckets : List ℕ :=
  [1,3,10,30,100,300,1000,3000,10000,30000,100000,300000,1000000,3000000,10000000,30000000,
    100000000,300000000,1000000000,3000000000,10000000000,30000000000]

/-- The scan of the bucket table: stop at the first bound that is large enough, or at the last. -/
def findBucketIndexFrom : List ℕ → ℚ → ℕ
  | b::b'::rest,value => if (b : ℚ) < value then findBucketIndexFrom (b'::rest) value+1 else 0
  | _,_ => 0

def findBucketIndex (value : ℚ) : ℕ := findBucketIndexFrom buckets value
def findBucket (value : ℚ) : ℕ := buckets.getD (findBucketIndex value) 0

lemma findBucketIndexFrom_lt (bs : List ℕ) (value : ℚ) (h : bs ≠ []) :
    findBucketIndexFrom bs value < bs.length := by
  induction bs with
  | nil => contradiction
  | cons b rest ih =>
    cases rest with
    | nil => simp [findBucketIndexFrom]
    | cons b' rest =>
      have hi := ih (by simp)
      simp only [findBucketIndexFrom,List.length_cons] at hi ⊢
      split <;> omega

theorem findBucketIndex_lt (value : ℚ) : findBucketIndex value < histogramSize :=
  findBucketIndexFrom_lt buckets value (by simp [buckets])

/-- Add one to the counter of a resource in the row stored under the composed key. -/
def addQuant (ns : Bytes) (resource : Fin n) (kind : UInt8) (quant : ℕ) (quants : ZHash (Fin n → ℕ)) :
    Except Fault (ZHash (Fin n → ℕ)) := do
  let key ← sprintf 2000 (kind::lit "-" ++ decimal quant ++ lit "-" ++ ns)
  let stored := (quants[key]?).getD fun _ => 0
  return quants.insert key (Function.update stored resource (stored resource+1))

/-- Kind and scale of the quantised resources; the others are skipped. -/
def quantKind (res : Resources n) (i : Fin n) : Option (UInt8 × ℕ) :=
  if i.val ≤ res.lastTimeResourceOffset then some (116,1)
  else if i = res.allocatedObjectsIndex then some (109,1)
  else if i = res.allocatedBytesIndex then some (109,1024)
  else if res.lastHeapResourceOffset < i.val ∧ i.val ≤ res.lastFrontendResourceOffset then some (102,1)
  else none

def processorAddQuants (res : Resources n) (self : Processor n) (ns : Bytes) (incs : Increments n) :
    Except Fault (Processor n) :=
  (List.finRange n).foldlM (fun self i =>
    let val := (incs.metrics i).val
    if val > 0 then
      match quantKind res i with
      | none => .ok self
      | some (kind,d) => do
        let bucket := findBucket (val/d)*d
        let quants ← addQuant ns i kind bucket self.quants
        let quants ← addQuant (lit "all_pages") i kind bucket quants
        return { self with quants := quants }
    else .ok self) self

def histogramKey (ns : Bytes) (minute : ℤ) (resource : Bytes) : Bytes :=
  snprintf 2000 (decimalInt minute ++ lit "-" ++ resource ++ lit "-" ++ ns)

def processorAddHistogram (self : Processor n) (ns : Bytes) (minute : ℤ) (resource : Bytes)
    (timeIndex : Fin n) (incs : Increments n) : Processor n :=
  let time := (incs.metrics timeIndex).val
  if time = 0 then self
  else
    let key := histogramKey ns minute resource
    let histogram := (self.histograms[key]?).getD fun _ => 0
    let i : Fin histogramSize := ⟨findBucketIndex time,findBucketIndex_lt time⟩
    { self with histograms :=
        self.histograms.insert key (Function.update histogram i (histogram i+1)) }

/-- Update the statistics of an agent, starting from zeros. -/
def updateAgent (self : Processor n) (agent : Option Bytes) (f : UserAgentStats → UserAgentStats) :
    Processor n :=
  match agent with
  | none => self
  | some a =>
    let stats := (self.agents[a]?).getD ⟨0,0,0,fun _ => 0⟩
    { self with agents := self.agents.insert a (f stats) }

def processorAddAgent (lib : JsonLib) (self : Processor n) (request : JObject) : Processor n :=
  updateAgent self (extractAgentFromRequest lib request) fun stats =>
    { stats with receivedBackend := stats.receivedBackend+1 }

def processorAddUserAgent (self : Processor n) (agent : Option Bytes) (reason : FeMsgDropReason) :
    Processor n :=
  updateAgent self agent fun stats =>
    { stats with
      receivedFrontend := stats.receivedFrontend+1
      feDropReasons := Function.update stats.feDropReasons reason (stats.feDropReasons reason+1)
      feDropped := if reason = .accepted then stats.feDropped else stats.feDropped+1 }

/-- The configuration of a running importer. -/
structure Env (n : ℕ) where
  res : Resources n
  json : JsonLib
  getStreamInfo : Bytes → Option StreamInfo
  dateWithinDrift : Bytes → Bool
  feApdexAttrIndex : ℕ

/-- An importer that knows one stream, for requests whose numbers are JSON integers. -/
def sampleEnv : Env 10 where
  res := sampleResources
  json := ⟨fun _ => 0,fun _ => 0,fun q => q.num.tdiv q.den,fun _ => []⟩
  getStreamInfo := fun stream => if stream = lit "shop-production" then
    some ⟨lit "production",none,false,[]⟩ else none
  dateWithinDrift := fun _ => true
  feApdexAttrIndex := 15

/-- Totals, minutes, quants and histograms of an accepted request. Page, module and all_pages
are updated alike, except that quants have no module rows. -/
def addAggregates (env : Env n) (self : Processor n) (page module : Bytes) (minute : ℤ)
    (resource : Bytes) (timeIndex : Fin n) (incs : Increments n) : Except Fault (Processor n) := do
  let self := processorAddTotals self page incs
  let self := processorAddTotals self module incs
  let self := processorAddTotals self (lit "all_pages") incs
  let self := processorAddMinutes self page minute incs
  let self := processorAddMinutes self module minute incs
  let self := processorAddMinutes self (lit "all_pages") minute incs
  let self ← processorAddQuants env.res self page incs
  let self := processorAddHistogram self page minute resource timeIndex incs
  let self := processorAddHistogram self module minute resource timeIndex incs
  return processorAddHistogram self (lit "all_pages") minute resource timeIndex incs

/-- The increments of one backend request, from the patched request. -/
def backendIncrements (env : Env n) (request : JObject) (totalTime : ℚ) (responseCode severity : ℤ)
    (exceptions softExceptions : Option Json) : Except Fault (Increments n) := do
  let incs : Increments n := { incrementsNew with backendRequestCount := 1 }
  let incs := incrementsFillMetrics env.json env.res incs request
  let incs := (incrementsFillApdex incs totalTime).1
  let incs := incrementsFillResponseCode incs responseCode
  let incs := incrementsFillSeverity incs severity
  let incs := incrementsFillCallerInfo env.json incs request
  let incs := incrementsFillSenderInfo env.json incs request
  let incs ← incrementsFillExceptions env.json incs exceptions
  incrementsFillSoftExceptions env.json incs softExceptions

def processorAddRequest (env : Env n) (info : StreamInfo) (self : Processor n) (request : JObject) :
    Except Fault (Processor n) :=
  let path := extractRequestPath env.json request
  if ignoreRequest request path info then .ok self
  else do
    let (page,request) ← processorSetupPage env.json request
    let (module,self) ← processorSetupModule self page
    let (responseCode,request) := processorSetupResponseCode env.json request
    let (severity,request) := processorSetupSeverity env.json request
    let (minute,request) ← processorSetupMinute env.json request
    let (totalTime,request) := processorSetupTime env.json request (lit "total_time") none
    let (exceptions,request) ← processorSetupExceptions request
    let (softExceptions,request) ← processorSetupSoftExceptions request
    let request ← processorSetupOtherTime env.json env.res request totalTime
    let request := processorSetupAllocatedMemory env.json request
    let request := adjustCallerInfo env.json path module request info
    let incs ← backendIncrements env request totalTime responseCode severity exceptions softExceptions
    let self ← addAggregates env self page module minute (lit "total_time") env.res.totalTimeIndex incs
    return processorAddAgent env.json self request

def jsExceptionIncrements (jsException : Bytes) : Increments n :=
  incrementsFillJsException incrementsNew jsException

def processorAddJsException (env : Env n) (self : Processor n) (request : JObject) :
    Except Fault (Processor n) := do
  let page ← extractPageForJse env.json request
  let jsException ← exctractKeyFromJseDescription env.json request
  if jsException = [] then return self
  let (minute,_) ← processorSetupMinute env.json request
  let (module,self) ← processorSetupModule self page
  let incs : Increments n := jsExceptionIncrements jsException
  let self := processorAddTotals self (lit "all_pages") incs
  let self := processorAddMinutes self (lit "all_pages") minute incs
  let self := if strstr page (lit "#unknown_method") = none then
      processorAddMinutes (processorAddTotals self page incs) page minute incs
    else self
  return if module ≠ lit "Unknown" then
      processorAddMinutes (processorAddTotals self module incs) module minute incs
    else self

def processorAddEvent (env : Env n) (self : Processor n) (request : JObject) :
    Except Fault (Processor n) := do
  let _ ← processorSetupMinute env.json request
  return self

/-- Frontend messages with a larger total time are dropped. -/
def feMsgOutlierThresholdMs : ℚ := 60000

def pageIncrements (env : Env n) (request : JObject) (totalTime : ℚ) (timings : List ℤ) : Increments n :=
  let incs : Increments n := { incrementsNew with pageRequestCount := 1 }
  let incs := incrementsFillMetrics env.json env.res incs request
  let incs := (incrementsFillFrontendApdex incs totalTime).1
  (incrementsFillPageApdex incs (timings.getD env.feApdexAttrIndex 0)).1

def processorAddFrontendData (env : Env n) (self : Processor n) (request : JObject) (tracked : Bool) :
    Except Fault (FeMsgDropReason × Processor n) := do
  let agent := extractUserAgentFromRequest env.json request
  let drop (self : Processor n) (reason : FeMsgDropReason) :=
    (reason,processorAddUserAgent self agent reason)
  match ← extractFrontendTimings env.json request 16 with
  | none => return drop self .corrupted
  | some timings =>
    if !checkFrontendRequestValidity env.json request tracked then return drop self .invalid
    else
      let (reason,timings,request) := convertFrontendTimingsToJson request timings
      if reason ≠ .accepted then return drop self reason
      else
        let (page,request) ← processorSetupPage env.json request
        let (module,self) ← processorSetupModule self page
        let (minute,request) ← processorSetupMinute env.json request
        let (totalTime,request) :=
          processorSetupTime env.json request (lit "page_time") (some (lit "frontend_time"))
        if totalTime > feMsgOutlierThresholdMs then return drop self .outlier
        else
          let incs := pageIncrements env request totalTime timings
          let self ← addAggregates env self page module minute (lit "page_time") env.res.pageTimeIndex incs
          return drop self .accepted

def ajaxIncrements (env : Env n) (request : JObject) (totalTime : ℚ) : Increments n :=
  let incs : Increments n := { incrementsNew with ajaxRequestCount := 1 }
  let incs := incrementsFillMetrics env.json env.res incs request
  let incs := (incrementsFillFrontendApdex incs totalTime).1
  (incrementsFillAjaxApdex incs totalTime).1

def processorAddAjaxData (env : Env n) (self : Processor n) (request : JObject) (tracked : Bool) :
    Except Fault (FeMsgDropReason × Processor n) := do
  let agent := extractUserAgentFromRequest env.json request
  let drop (self : Processor n) (reason : FeMsgDropReason) :=
    (reason,processorAddUserAgent self agent reason)
  match ← extractFrontendTimings env.json request 2 with
  | none => return drop self .corrupted
  | some timings =>
    if !checkFrontendRequestValidity env.json request tracked then return drop self .illegal
    else
      let ajaxTime := toInt64 (timings.getD 1 0-timings.getD 0 0)
      if ajaxTime < 0 then return drop self .invalid
      else
        let request := request.add (lit "ajax_time") (.int ajaxTime)
        let (page,request) ← processorSetupPage env.json request
        let (module,self) ← processorSetupModule self page
        let (minute,request) ← processorSetupMinute env.json request
        let (totalTime,request) :=
          processorSetupTime env.json request (lit "ajax_time") (some (lit "frontend_time"))
        if totalTime > feMsgOutlierThresholdMs then return drop self .outlier
        else
          let incs := ajaxIncrements env request totalTime
          let self ← addAggregates env self page module minute (lit "ajax_time") env.res.ajaxTimeIndex incs
          return drop self .accepted

end Logjam.Importer
