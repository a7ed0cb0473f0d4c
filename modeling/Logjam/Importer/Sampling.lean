import Logjam.Importer.Parser
import Logjam.Importer.RequestData

/-! Which requests are stored. A request is interesting if it was slow, had errors or exceptions, or let the heap
grow; of the less important ones a sample is taken. Nothing is stored of a stream that takes too much space. -/
namespace Logjam.Importer
open Logjam.Library

/-- The settings of a stream that the decision depends on, and the app it belongs to. -/
structure StreamSettings where
  app : Bytes
  importThreshold : ℤ
  moduleThresholds : List (Bytes × ℕ)
  samplingRate400sThreshold : ℤ

def sampleSlowRequest : ℕ := 1
def sampleLogSeverity : ℕ := 1 <<< 1
def sample500 : ℕ := 1 <<< 2
def sample400 : ℕ := 1 <<< 3
def sampleExceptions : ℕ := 1 <<< 4
def sampleHeapGrowth : ℕ := 1 <<< 5

def logSeverityWarn : ℤ := 2
def logSeverityError : ℤ := 3
def logSeverityFatal : ℤ := 4

def maxRandomValue : ℕ := 2^31-1
def tenPercentOfMaxRandom : ℕ := 214748364
def softLimitStorageSize : ℤ := 16106127360
def hardLimitStorageSize : ℤ := 32212254720

/-- What the calls of random return, one after the other. None of them returns more than the maximum. -/
abbrev Draws := Stream' (Fin (2^31))

def slowRequest (settings : StreamSettings) (totalTime : ℚ) (module : Bytes) : Bool :=
  if totalTime > settings.importThreshold then true
  else
    match settings.moduleThresholds.find? fun threshold => threshold.1 == module with
    | some threshold => decide (totalTime > threshold.2)
    | none => false

def sampleRandomly (settings : StreamSettings) (draws : Draws) : Bool × Draws :=
  if settings.samplingRate400sThreshold = maxRandomValue then (true,draws)
  else (decide ((draws.head.val : ℤ) ≤ settings.samplingRate400sThreshold),draws.tail)

/-- An error that is not sampled as such has a second chance as a warning. -/
def interestingSeverity (settings : StreamSettings) (data : RequestData) (draws : Draws) : Bool × Draws :=
  if data.severity ≥ logSeverityFatal then (true,draws)
  else
    let (erroneous,draws) :=
      if data.severity ≥ logSeverityError then
        if data.responseCode ≥ 500 then (true,draws) else sampleRandomly settings draws
      else (false,draws)
    if erroneous then (true,draws)
    else if data.severity ≥ logSeverityWarn then sampleRandomly settings draws
    else (false,draws)

def interestingRequest (settings : StreamSettings) (data : RequestData) (draws : Draws) : ℕ × Draws :=
  let reason := if slowRequest settings data.totalTime (data.module.drop 2) then sampleSlowRequest else 0
  let (severe,draws) := interestingSeverity settings data draws
  let reason := if severe then reason ||| sampleLogSeverity else reason
  let (reason,draws) :=
    if data.responseCode ≥ 500 then (reason ||| sample500,draws)
    else if data.responseCode ≥ 400 then
      let (sampled,draws) := sampleRandomly settings draws
      (if sampled then reason ||| sample400 else reason,draws)
    else (reason,draws)
  let reason := if data.exceptions.isSome then reason ||| sampleExceptions else reason
  (if data.heapGrowth > 0 then reason ||| sampleHeapGrowth else reason,draws)

def throttleRequest (storageSize : ℤ) (draws : Draws) : Bool × Draws :=
  if storageSize > hardLimitStorageSize then (true,draws)
  else if storageSize > softLimitStorageSize then (decide (draws.head.val ≤ tenPercentOfMaxRandom),draws.tail)
  else (false,draws)

/-! The messages to the request writers. -/

inductive WriterTask
  | request (samplingReason : ℕ)
  | jsException
  | event

/-- The writer gets the stream itself; app and environment are what it needs of it. -/
structure RequestMsg where
  dbName : Bytes
  task : WriterTask
  module : Bytes
  request : JObject
  app : Bytes
  env : Bytes

variable {n : ℕ} (env : Env n) (info : StreamInfo) (settings : StreamSettings) (dbName : Bytes)

/-- The last part of processor_add_request. -/
def forwardedRequest (storageSize : ℤ) (draws : Draws) (request : JObject) :
    Except Fault (Option RequestMsg × Draws) := do
  match ← setupRequest env info request with
  | none => return (none,draws)
  | some data =>
    let (samplingReason,draws) := interestingRequest settings data draws
    if samplingReason = 0 then return (none,draws)
    else
      let (throttled,draws) := throttleRequest storageSize draws
      if throttled then return (none,draws)
      else return (some ⟨dbName,.request samplingReason,data.module,data.request,settings.app,info.env⟩,draws)

/-- The last part of processor_add_js_exception. -/
def forwardedJsException (request : JObject) : Except Fault (Option RequestMsg) := do
  let page ← extractPageForJse env.json request
  let jsException ← exctractKeyFromJseDescription env.json request
  if jsException = [] then return none
  let (_,request) ← processorSetupMinute env.json request
  let module ← moduleStr page
  return some ⟨dbName,.jsException,module,request,settings.app,info.env⟩

def forwardedEvent (request : JObject) : Except Fault (Option RequestMsg) := do
  let (_,request) ← processorSetupMinute env.json request
  return some ⟨dbName,.event,[],request,settings.app,info.env⟩

/-- What parse_msg_and_forward_interesting_requests sends to the writers, if anything. The stream is that of the
processor. -/
def forwardedMsg (settings : Bytes → StreamSettings) (streams : ZHash Bytes) (storageSize : Bytes → ℤ) (draws : Draws)
    (msg : ParsedMsg) : Except Fault (Option RequestMsg × Draws) := do
  match ← processorCreate env msg.stream msg.request with
  | none => return (none,draws)
  | some (dbName,own) =>
    let stream := streamOf streams dbName msg
    let info := settingsOf env streams dbName own msg
    let request := jsonMembers msg.request
    if (lit "logs").isPrefixOf msg.topic then
      forwardedRequest env info (settings stream) dbName (storageSize stream) draws request
    else if (lit "javascript").isPrefixOf msg.topic then
      return (← forwardedJsException env info (settings stream) dbName request,draws)
    else if (lit "events").isPrefixOf msg.topic then
      return (← forwardedEvent env info (settings stream) dbName request,draws)
    else return (none,draws)

end Logjam.Importer
