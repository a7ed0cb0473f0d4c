import Logjam.Importer.Increments

/-! What the processor reads out of a message body, and the defaults it patches into it before
the metrics are read back. -/
namespace Logjam.Importer

/-- The settings of a stream that message processing consults. -/
structure StreamInfo where
  env : Bytes
  ignoredRequestPrefix : Option Bytes
  allRequestsAreApiRequests : Bool
  apiRequests : List Bytes

/-- What add_stream_settings does with the ignored prefix. The string of a member that is null is
duplicated like any other. -/
def addIgnoredRequestUri (lib : JsonLib) (info : StreamInfo) (streamObj : JObject) : Except Fault StreamInfo :=
  match streamObj.lookup (lit "ignored_request_uri") with
  | none => .ok info
  | some v => do
    let uri ← jsonString lib v
    return { info with ignoredRequestPrefix := some uri }

/-- Action names are completed to the form class#method. -/
def completePage (page : Bytes) : Option Bytes :=
  if page = [] then some (page ++ lit "Unknown#unknown_method")
  else if strchr page 35 = none then some (page ++ lit "#unknown_method")
  else if page.getLast? = some 35 then some (page ++ lit "unknown_method")
  else none

def processorSetupPage (lib : JsonLib) (request : JObject) : Except Fault (Bytes × JObject) := do
  let (pageObj,request) :=
    match request.lookup (lit "action") with
    | some v => (v,request.del (lit "action"))
    | none =>
      match request.lookup (lit "logjam_action") with
      | some v => (v,request.del (lit "logjam_action"))
      | none => (.str (lit "Unknown#unknown_method"),request)
  let page ← jsonString lib pageObj
  match completePage page with
  | some longer => return (longer,request.add (lit "page") (.str longer))
  | none => return (page,request.add (lit "page") pageObj)

/-- The name written to module_str, which has room for as many bytes as the page and a NUL. -/
def moduleStr (page : Bytes) : Except Fault Bytes :=
  let module :=
    match strchr page 58 with
    | some p => if p ≠ 0 then lit "::" ++ page.take p else lit "::"
    | none =>
      match strchr page 35 with
      | some p => lit "::" ++ page.take p
      | none => lit "::"
  sprintf (page.length+1) module

def processorSetupResponseCode (lib : JsonLib) (request : JObject) : ℤ × JObject :=
  match request.lookup (lit "code") with
  | some v =>
    let code := jsonObjectGetInt lib v
    (code,(request.del (lit "code")).add (lit "response_code") (.int code))
  | none => (500,request.add (lit "response_code") (.int 500))

/-- The highest level of the log lines; unknown levels read as none at all. -/
def extractSeverityFromLinesObject (lib : JsonLib) : Json → ℤ
  | .arr lines =>
    let logLevel := lines.foldl (fun level line =>
      match line with
      | .arr (.null::_) => level
      | .arr (v::_) => if jsonObjectGetInt lib v > level then jsonObjectGetInt lib v else level
      | _ => level) (-1)
    if logLevel > 5 then -1 else logLevel
  | _ => -1

def processorSetupSeverity (lib : JsonLib) (request : JObject) : ℤ × JObject :=
  match request.lookup (lit "severity") with
  | some v => (jsonObjectGetInt lib v,request)
  | none =>
    let extracted :=
      match request.lookup (lit "lines") with
      | some lines => extractSeverityFromLinesObject lib lines
      | none => -1
    let severity := if extracted ≠ -1 then extracted else 1
    (severity,request.add (lit "severity") (.int severity))

/-- Hours and minutes sit at fixed places of started_at. -/
def processorSetupMinute (lib : JsonLib) (request : JObject) : Except Fault (ℤ × JObject) :=
  match request.lookup (lit "started_at") with
  | none => .ok (0,request.add (lit "minute") (.int 0))
  | some v => do
    let s ← jsonString lib v
    if s.length < 15 then throw .outOfBounds
    let hours := cstr [s.getD 11 0,s.getD 12 0]
    let minutes := cstr [s.getD 14 0,s.getD 15 0]
    let minute := 60*atoi hours+atoi minutes
    return (minute,request.add (lit "minute") (.int minute))

/-- A missing or zero time counts as one millisecond. -/
def processorSetupTime (lib : JsonLib) (request : JObject) (timeName : Bytes) (duplicate : Option Bytes) :
    ℚ × JObject :=
  let (time,request) :=
    match request.lookup timeName with
    | some v =>
      if jsonObjectGetDouble lib v = 0 then (1,request.add timeName (.double 1))
      else (jsonObjectGetDouble lib v,request)
    | none => (1,request.add timeName (.double 1))
  match duplicate with
  | some name => (time,request.add name (.double time))
  | none => (time,request)

def setupExceptionGroup (request : JObject) (name : Bytes) : Except Fault (Option Json × JObject) :=
  match request.lookup name with
  | none => .ok (none,request)
  | some v => do
    let xs ← jsonArray v
    if xs = [] then return (none,request.del name) else return (some v,request)

def processorSetupExceptions (request : JObject) : Except Fault (Option Json × JObject) :=
  setupExceptionGroup request (lit "exceptions")
def processorSetupSoftExceptions (request : JObject) : Except Fault (Option Json × JObject) :=
  setupExceptionGroup request (lit "soft_exceptions")

variable {n : ℕ}

/-- A size_t, which wraps around if there are no such resources. -/
def Resources.lastOtherTimeResourceIndex (res : Resources n) : ℕ := (res.otherTimeResources.length+2^64-1)%2^64

/-- The loop up to the last index. Behind the resources the names are NULL. -/
def subtractTimes (lib : JsonLib) (request : JObject) : List Bytes → ℕ → ℚ → Except Fault ℚ
  | [],_,_ => .error .nullString
  | name::names,last,t =>
    let t := match request.lookup name with
      | some v => t-jsonObjectGetDouble lib v
      | none => t
    match last with
    | 0 => .ok t
    | last+1 => subtractTimes lib request names last t

/-- The time no measured part accounts for. Nothing keeps it from being negative. -/
def processorSetupOtherTime (lib : JsonLib) (res : Resources n) (request : JObject) (totalTime : ℚ) :
    Except Fault JObject := do
  let otherTime ← subtractTimes lib request res.otherTimeResources res.lastOtherTimeResourceIndex totalTime
  return request.add (lit "other_time") (.double otherTime)

def processorSetupAllocatedMemory (lib : JsonLib) (request : JObject) : JObject :=
  match request.lookup (lit "allocated_memory") with
  | some _ => request
  | none =>
    match request.lookup (lit "allocated_objects"),request.lookup (lit "allocated_bytes") with
    | some objects,some bytes =>
      let memory := toInt64 (jsonObjectGetInt64 lib bytes+jsonObjectGetInt64 lib objects*40)
      request.add (lit "allocated_memory") (.int memory)
    | _,_ => request

/-- The path part of the request URL, without protocol and host. -/
def extractRequestPath (lib : JsonLib) (request : JObject) : Option Bytes := do
  let info ← request.lookup (lit "request_info")
  let urlObj ← jsonObjectObjectGetEx info (lit "url")
  let url ← jsonObjectGetString lib urlObj
  let rest := match strstr url (lit "://") with
    | some p => url.drop (p+3)
    | none => url
  return rest.dropWhile (· != 47)

def ignoreRequest (request : JObject) (path : Option Bytes) (info : StreamInfo) : Bool :=
  let flagged := match request.lookup (lit "logjam_ignore_message") with
    | some v => jsonObjectGetBoolean v
    | none => false
  let matched := match path,info.ignoredRequestPrefix with
    | some p,some ignored => ignored.isPrefixOf p
    | _,_ => false
  flagged || matched

/-- Give a member a value if it is missing, null or the empty string. -/
def defaultMember (lib : JsonLib) (request : JObject) (key value : Bytes) : JObject :=
  match nonEmptyMember lib request key with
  | some _ => request
  | none => request.add key (.str value)

def adjustCallerInfo (lib : JsonLib) (path : Option Bytes) (module : Bytes) (request : JObject)
    (info : StreamInfo) : JObject :=
  match path with
  | none => request
  | some _ =>
    if info.allRequestsAreApiRequests || info.apiRequests.contains (module.dropWhile (· == 58)) then
      let request := defaultMember lib request (lit "caller_id")
        (lit "unknown-" ++ info.env ++ lit "-unknown")
      defaultMember lib request (lit "caller_action") (lit "Unknown#unknown")
    else request

def extractAgentFromRequest (lib : JsonLib) (request : JObject) : Option Bytes := do
  let info ← request.lookup (lit "request_info")
  let headers ← jsonObjectObjectGetEx info (lit "headers")
  let agent ← jsonObjectObjectGetEx headers (lit "User-Agent")
  jsonObjectGetString lib agent

def extractUserAgentFromRequest (lib : JsonLib) (request : JObject) : Option Bytes := do
  let agent ← request.lookup (lit "user_agent")
  jsonObjectGetString lib agent

def extractPageForJse (lib : JsonLib) (request : JObject) : Except Fault Bytes := do
  let page ← match request.lookup (lit "logjam_action") with
    | some v => jsonString lib v
    | none => pure (lit "Unknown#unknown_method")
  if strchr page 35 = none then return page ++ lit "#unknown_method"
  else if page.getLast? = some 35 then return page ++ lit "unknown_method"
  else return page

def exctractKeyFromJseDescription (lib : JsonLib) (request : JObject) : Except Fault Bytes :=
  match request.lookup (lit "description") with
  | some v => jsonString lib v
  | none => .ok (lit "unknown_exception")

inductive FeMsgDropReason
  | accepted
  | outlier
  | navTiming
  | illegal
  | corrupted
  | invalid
  deriving Repr, DecidableEq

/-- Scan comma separated fields of digits; the accumulator holds the completed fields. The values
are 64 bit integers, and nothing keeps them from overflowing. -/
def scanTimings (numTimings : ℕ) : Bytes → List ℤ → ℤ → Option (List ℤ)
  | [],times,value =>
    let times := times ++ [value]
    if times.length < numTimings then none else some times
  | c::rest,times,value =>
    if c = 44 then
      if (times ++ [value]).length = numTimings then none
      else scanTimings numTimings rest (times ++ [value]) 0
    else if isDigit c then scanTimings numTimings rest times (toInt64 (value*10+((c.toNat : ℤ)-48)))
    else none

def extractFrontendTimings (lib : JsonLib) (request : JObject) (numTimings : ℕ) :
    Except Fault (Option (List ℤ)) :=
  match request.lookup (lit "rts") with
  | none => .ok none
  | some v => do
    let rts ← jsonString lib v
    return scanTimings numTimings rts [] 0

def sortedAscending : List ℤ → Bool
  | a::b::rest => a ≤ b && sortedAscending (b::rest)
  | _ => true

def makeRelative (timings : List ℤ) (base : ℤ) : List ℤ :=
  timings.map fun t => if t > 0 then toInt64 (t-base) else t

/-- The timings of a page, in the order in which the browser reports them. -/
def navigationStart : ℕ := 0
def fetchStart : ℕ := 1
def requestStart : ℕ := 6
def responseStart : ℕ := 7
def responseEnd : ℕ := 8
def domInteractive : ℕ := 10
def domComplete : ℕ := 13
def loadEventEnd : ℕ := 15

/-- Turn absolute timings into the phases of a page load. The timings come back relative to
their base. -/
def convertFrontendTimingsToJson (request : JObject) (timings : List ℤ) :
    FeMsgDropReason × List ℤ × JObject :=
  let at' (l : List ℤ) (i : ℕ) := l.getD i 0
  let base := if at' timings navigationStart = 0 then at' timings fetchStart
    else at' timings navigationStart
  let timings := timings.set navigationStart base
  if base = 0 then
    (if timings.all (· == 0) then .navTiming else .invalid,timings,request)
  else
    let t := at' (makeRelative timings base)
    if t navigationStart < 0 || t domInteractive ≤ 0 ||
        !sortedAscending [t navigationStart,t requestStart,t responseStart,t responseEnd,t domComplete] then
      (.invalid,makeRelative timings base,request)
    else
      let request := request.add (lit "navigation_time") (.int (t fetchStart))
      let request := request.add (lit "connect_time") (.int (toInt64 (t requestStart-t fetchStart)))
      let request := request.add (lit "request_time") (.int (toInt64 (t responseStart-t requestStart)))
      let request := request.add (lit "response_time") (.int (toInt64 (t responseEnd-t responseStart)))
      let request := request.add (lit "processing_time") (.int (toInt64 (t domComplete-t responseEnd)))
      let request := request.add (lit "load_time") (.int (toInt64 (t loadEventEnd-t domComplete)))
      let request := request.add (lit "page_time") (.int (t loadEventEnd))
      let request := request.add (lit "dom_interactive") (.int (t domInteractive))
      (.accepted,makeRelative timings base,request)

/-- A frontend message is valid if it names a request and the tracker accepts its deletion. -/
def checkFrontendRequestValidity (lib : JsonLib) (request : JObject) (tracked : Bool) : Bool :=
  let id := match request.lookup (lit "logjam_request_id") with
    | some v => some v
    | none => request.lookup (lit "request_id")
  match id.bind (jsonObjectGetString lib) with
  | none => false
  | some _ => tracked

end Logjam.Importer
