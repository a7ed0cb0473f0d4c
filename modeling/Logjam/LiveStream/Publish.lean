import Logjam.Basic.JsonText
import Logjam.Importer.Increments

/-! What the importer publishes on the live stream socket: the controller the totals of every
module of a stream, the request writers the errors. -/
namespace Logjam.LiveStream
open Logjam.Importer (ZHash Increments Resources)

variable {n : ℕ}

def toLower (c : UInt8) : UInt8 := if 65 ≤ c ∧ c ≤ 90 then c+32 else c

/-- Colons at the beginning of the module are skipped. -/
def liveStreamKey (app env module : Bytes) : Bytes :=
  (app ++ lit "-" ++ env ++ lit "," ++ module.dropWhile (· == 58)).map toLower

/-- The two frames zstr_sendx makes of its arguments. -/
def liveStreamPublish (key jsonStr : Bytes) : List Bytes := [key,cstr jsonStr]

def incrementsAddMetricsToJson (res : Resources n) (incs : Increments n) (jobj : JObject) : JObject :=
  (List.finRange n).foldl (fun jobj i =>
    if 0 < (incs.metrics i).val then jobj.add (res.intToResource i) (.double (incs.metrics i).val) else jobj) jobj

def countsJson (count pageCount ajaxCount : ℕ) : JObject :=
  ((JObject.add [] (lit "count") (.int (toInt32 count))).add (lit "page_count") (.int (toInt32 pageCount))).add
    (lit "ajax_count") (.int (toInt32 ajaxCount))

def totalsJson (res : Resources n) : Option (Increments n) → JObject
  | some incs => incrementsAddMetricsToJson res incs
      (countsJson incs.backendRequestCount incs.pageRequestCount incs.ajaxRequestCount)
  | none => countsJson 0 0 0

/-- One message for every known module. There are no totals for a stream without requests. -/
def publishTotals (number : NumberText) (res : Resources n) (app env : Bytes) (knownModules : List Bytes)
    (totals : Option (ZHash (Increments n))) : List (List Bytes) :=
  knownModules.map fun module => liveStreamPublish (liveStreamKey app env module)
    (jsonText number (.obj (totalsJson res (totals.bind fun t => t[module]?))))

/-- JSON null is a NULL pointer. -/
def nonNull : Option Json → Option Json
  | some .null => none
  | v => v

/-- The text of the first line that is at least as severe. -/
def findErrorLine (lib : JsonLib) (severity : ℤ) : List Json → Except Fault (Option Json)
  | [] => .ok none
  | .null::lines => findErrorLine lib severity lines
  | line::lines => do
    let fields ← jsonArray line
    match nonNull fields[0]? with
    | some sev =>
      if severity ≤ jsonObjectGetInt lib sev then return nonNull fields[2]?
      else findErrorLine lib severity lines
    | none => findErrorLine lib severity lines

def extractErrorDescription (lib : JsonLib) (request : JObject) (severity : ℤ) : Except Fault Json := do
  let errorLine ← match request.lookup (lit "lines") with
    | some lines => do
      let xs ← jsonArray lines
      findErrorLine lib severity xs
    | none => .ok none
  match errorLine with
  | some line => do
    let description ← jsonString lib line
    return .str description
  | none => return .str (lit "------ unknown ------")

/-- A member the request writer asserts. -/
def requiredMember (request : JObject) (key : Bytes) : Except Fault Json :=
  match request.lookup key with
  | some v => .ok v
  | none => .error .assertFailed

def errorInfo (lib : JsonLib) (request : JObject) (requestId severity : Json) : Except Fault JObject := do
  let action ← requiredMember request (lit "page")
  let rsp ← requiredMember request (lit "response_code")
  let startedAt ← requiredMember request (lit "started_at")
  let description ← extractErrorDescription lib request (jsonObjectGetInt lib severity)
  return (((((JObject.add [] (lit "request_id") requestId).add (lit "severity") severity).add
    (lit "action") action).add (lit "response_code") rsp).add (lit "time") startedAt).add
    (lit "description") description

def publishErrorForModule (app env module jsonStr : Bytes) : List Bytes :=
  liveStreamPublish (liveStreamKey app env module) jsonStr

/-- The request id is the one store_request has taken out of the request. -/
def requestWriterPublishError (lib : JsonLib) (number : NumberText) (app env module : Bytes) (request : JObject)
    (requestId : Option Json) : Except Fault (List (List Bytes)) :=
  match requestId,request.lookup (lit "severity") with
  | some requestId,some severity =>
    if 1 < jsonObjectGetInt lib severity then do
      let info ← errorInfo lib request requestId severity
      let jsonStr := jsonText number (.arr [.obj info])
      return [publishErrorForModule app env (lit "all_pages") jsonStr,publishErrorForModule app env module jsonStr]
    else .ok []
  | _,_ => .ok []

end Logjam.LiveStream
