import Logjam.Importer.Processor
import Logjam.Library.Ensures

/-! The request data that processor_add_request works with, and the request it leaves behind. On the way the
members of the request are patched: a few of them are renamed, and defaults are filled in. -/
namespace Logjam.Importer
open Logjam.Library

/-- The patched request is kept with the data: it is what the request writers get. -/
structure RequestData where
  page : Bytes
  module : Bytes
  responseCode : ℤ
  severity : ℤ
  minute : ℤ
  totalTime : ℚ
  exceptions : Option Json
  softExceptions : Option Json
  heapGrowth : ℤ
  request : JObject

variable {n : ℕ}

def processorSetupHeapGrowth (lib : JsonLib) (request : JObject) : ℤ :=
  match request.lookup (lit "heap_growth") with
  | some v => jsonObjectGetInt lib v
  | none => 0

/-- The first part of processor_add_request. A request that is ignored has no data. -/
def setupRequest (env : Env n) (info : StreamInfo) (request : JObject) : Except Fault (Option RequestData) :=
  let path := extractRequestPath env.json request
  if ignoreRequest request path info then .ok none
  else do
    let (page,request) ← processorSetupPage env.json request
    let module ← moduleStr page
    let (responseCode,request) := processorSetupResponseCode env.json request
    let (severity,request) := processorSetupSeverity env.json request
    let (minute,request) ← processorSetupMinute env.json request
    let (totalTime,request) := processorSetupTime env.json request (lit "total_time") none
    let (exceptions,request) ← processorSetupExceptions request
    let (softExceptions,request) ← processorSetupSoftExceptions request
    let request ← processorSetupOtherTime env.json env.res request totalTime
    let request := processorSetupAllocatedMemory env.json request
    let heapGrowth := processorSetupHeapGrowth env.json request
    let request := adjustCallerInfo env.json path module request info
    return some ⟨page,module,responseCode,severity,minute,totalTime,exceptions,softExceptions,heapGrowth,request⟩

end Logjam.Importer
