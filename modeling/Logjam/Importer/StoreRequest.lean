import Logjam.Importer.Sampling
import Logjam.Importer.StoreEvent
import Logjam.LiveStream.Publish

/-! What a request writer does with a message. The metrics of a request are moved to an array, in which they can
be searched for, and its id becomes the id of the document. The metrics of slow requests are stored separately as
well, and errors are published on the live stream. -/
namespace Logjam.Importer
open Logjam.Library Logjam.LiveStream

variable {n : ℕ}

/-! The metrics. -/

def jsonObjectIsZero : Json → Bool
  | .double x => x == 0
  | .int v => v == 0
  | _ => false

/-- Only numbers go to the document of the metrics. -/
def metricEntry (resource : Bytes) : Json → BsonDocument
  | .double x => [(resource,.double x)]
  | .int v => [(resource,.int64 v)]
  | _ => []

def metricPair (resource : Bytes) (val : Json) : Json := .obj [(lit "n",.str resource),(lit "v",val)]

structure MetricsScan where
  request : JObject
  metrics : List Json
  document : BsonDocument

/-- One round of the loop of convert_metrics_for_indexing. -/
def convertMetric (scan : MetricsScan) (resource : Bytes) : MetricsScan :=
  match scan.request.lookup resource with
  | none => scan
  | some val =>
    let request := scan.request.del resource
    if jsonObjectIsZero val then { scan with request := request }
    else ⟨request,scan.metrics ++ [metricPair resource val],scan.document ++ metricEntry resource val⟩

def Resources.names (res : Resources n) : List Bytes := (List.finRange n).map res.intToResource

/-- The request with an array of metrics, and the metrics as a document. -/
def convertMetricsForIndexing (res : Resources n) (request : JObject) : JObject × BsonDocument :=
  let scan := res.names.foldl convertMetric ⟨request,[],[]⟩
  (scan.request.add (lit "metrics") (.arr scan.metrics),scan.document)

/-- A document of the metrics collection. -/
structure MetricDocument where
  page : Bytes
  module : Bytes
  minute : ℤ
  metric : Bytes
  value : Bson
  rid : EventField

def addMetricsToMetricsCollection (metrics : BsonDocument) (page module : Bytes) (minute : ℤ) (rid : EventField) :
    List MetricDocument :=
  metrics.map fun metric => ⟨page,module.dropWhile (· == 58),minute,metric.1,metric.2,rid⟩

/-! The request. -/

/-- The id of a request as JSON and as text, and what is left of its members. -/
def extractRequestId (lib : JsonLib) (request : JObject) : Option (Json × Bytes) × JObject :=
  match request.lookup (lit "request_id") with
  | none => (none,request)
  | some requestIdObj =>
    let rest := request.del (lit "request_id")
    match jsonObjectGetString lib requestIdObj with
    | none => (none,rest)
    | some requestId => if requestId.length ≠ 32 then (none,rest) else (some (requestIdObj,requestId),rest)

/-- The id of the document; one is generated if the request has none. -/
def documentId (oid : Bytes) : Option (Json × Bytes) → EventField
  | some (_,requestId) => .uuid requestId
  | none => .oid oid

/-- How the metrics refer to the document. -/
def metricsRid (oid : Bytes) : Option (Json × Bytes) → EventField
  | some (_,requestId) => .member (.utf8 requestId)
  | none => .oid oid

structure StoredRequest where
  document : EventDocument
  metrics : List MetricDocument
  request : JObject
  requestId : Option Json

/-- The metrics are stored if the document could be inserted. -/
def storeRequest (lib : JsonLib) (res : Resources n) (oid : Bytes) (inserted : Bool) (module : Bytes)
    (samplingReason : ℕ) (request : JObject) : Except Fault StoredRequest := do
  let (request,metrics) := convertMetricsForIndexing res request
  let (requestId,request) := extractRequestId lib request
  let document ← appendMembers [(lit "_id",documentId oid requestId)] request
  let stored (metrics : List MetricDocument) : StoredRequest := ⟨document,metrics,request,requestId.map Prod.fst⟩
  match inserted,request.lookup (lit "page"),request.lookup (lit "minute") with
  | true,some pageObj,some minuteObj =>
    if samplingReason &&& (sampleSlowRequest ||| sampleHeapGrowth) ≠ 0 then
      let page ← jsonString lib pageObj
      return stored (addMetricsToMetricsCollection metrics page module (jsonObjectGetInt lib minuteObj)
        (metricsRid oid requestId))
    else return stored []
  | _,_,_ => return stored []

def storeJsException (request : JObject) : Except Fault EventDocument := appendMembers [] request

/-! Messages. -/

/-- The collections that request writers insert into. -/
inductive WriterCollection
  | requests
  | jsExceptions
  | events
  deriving DecidableEq

/-- What happens on account of a message. -/
structure Effects where
  dbName : Bytes
  collection : WriterCollection
  document : EventDocument
  metrics : List MetricDocument
  published : List (List Bytes)

/-- An importer with its request writers. -/
structure WriterEnv (n : ℕ) extends Env n where
  settings : Bytes → StreamSettings
  number : NumberText

def handleRequestMsg (env : WriterEnv n) (oid : Bytes) (inserted : Bool) (msg : RequestMsg) : Except Fault Effects :=
  match msg.task with
  | .request samplingReason => do
    let stored ← storeRequest env.json env.res oid inserted msg.module samplingReason msg.request
    let published ← requestWriterPublishError env.json env.number msg.app msg.env msg.module stored.request
      stored.requestId
    return ⟨msg.dbName,.requests,stored.document,stored.metrics,published⟩
  | .jsException => do
    let document ← storeJsException msg.request
    return ⟨msg.dbName,.jsExceptions,document,[],[]⟩
  | .event => do
    let document ← storeEvent env.json oid msg.request
    return ⟨msg.dbName,.events,document,[],[]⟩

end Logjam.Importer
