import Logjam.Importer.Increments

/-! The live stream server. One dispatcher owns the state of all applications; it takes messages of
the ZeroMQ handler and of the web socket readers from two channels. Total times are exact. -/
namespace Logjam.LiveStream
open Logjam.Importer (ZHash)

/-- The ways in which a goroutine ends the whole program. -/
inductive Panic
  | sendOnClosedChannel
  | closeOfClosedChannel
  deriving Repr, DecidableEq

def bufSize : ℕ := 60

instance bufSizeNeZero : NeZero bufSize := ⟨by decide⟩

/-- StringRing and Float64Ring. The last element is in the array, unless there is none. -/
structure Ring (α : Type) where
  buf : Fin bufSize → α
  last : ℤ
  size : ℕ
  low : -1 ≤ last
  high : last < bufSize

namespace Ring

variable {α : Type}

def new (zero : α) : Ring α := ⟨fun _ => zero,-1,0,by decide,by decide⟩

/-- The index of the next element. -/
def next (b : Ring α) : Fin bufSize :=
  ⟨((b.last+1).tmod bufSize).toNat,by
    have := Int.tmod_lt_of_pos (b.last+1) (b := bufSize) (by decide)
    have : 0 < bufSize := by decide
    omega⟩

def add (b : Ring α) (val : α) : Ring α where
  buf := Function.update b.buf b.next val
  last := b.next
  size := if b.size < bufSize then b.size+1 else b.size
  low := by omega
  high := by exact_mod_cast b.next.isLt

def isFull (b : Ring α) : Bool := b.size == bufSize

def reset (b : Ring α) : Ring α := ⟨b.buf,-1,0,by decide,by decide⟩

/-- The remainder of a negative number is negative and gets corrected. -/
def start (b : Ring α) : Fin bufSize :=
  let p := (b.last-b.size+1).tmod bufSize
  ⟨(if p < 0 then p+bufSize else p).toNat,by
    have : p < bufSize := Int.tmod_lt_of_pos _ (by decide)
    have : 0 < bufSize := by decide
    split <;> omega⟩

/-- The elements from a position on, which wraps around at the end of the array. -/
def elementsFrom (b : Ring α) : ℕ → Fin bufSize → List α
  | 0,_ => []
  | n+1,p => b.buf p::b.elementsFrom n (p+1)

/-- What ForEach visits. -/
def elements (b : Ring α) : List α := b.elementsFrom b.size b.start

/-- As long as the ring has not wrapped around, the whole array is summed up. -/
def mean (b : Ring ℚ) : ℚ :=
  if b.size = 0 then 0
  else if (b.size : ℤ)-1 = b.last then (∑ i, b.buf i)/b.size
  else b.elements.sum/b.size

end Ring

/-- A buffered channel. -/
structure Channel where
  buffer : List Bytes
  closed : Bool

def channelCapacity : ℕ := 1000

/-- A send in a select with a default case: nothing is sent if there is no room. -/
def Channel.send (c : Channel) (data : Bytes) : Except Panic Channel :=
  if c.closed then .error .sendOnClosedChannel
  else if c.buffer.length < channelCapacity then .ok { c with buffer := c.buffer ++ [data] }
  else .ok c

def Channel.close (c : Channel) : Except Panic Channel :=
  if c.closed then .error .closeOfClosedChannel else .ok { c with closed := true }

/-- Readers are numbered; each of them has one channel. -/
abbrev ReaderId := ℕ

abbrev Channels := ReaderId → Channel

structure AppInfo where
  errors : Ring Bytes
  metrics : Ring Bytes
  lastMinute : Ring ℚ
  lastHour : Ring ℚ
  channels : ZHash ReaderId
  lastAnomalyMsg : Bytes

def AppInfo.new : AppInfo := ⟨Ring.new [],Ring.new [],Ring.new 0,Ring.new 0,∅,[]⟩

/-- AppEnvBufferMap.Get without the insertion of the new entry. -/
def getApp (apps : ZHash AppInfo) (key : Bytes) : AppInfo := (apps[key]?).getD AppInfo.new

inductive ZmqMsgType
  | perfMsg
  | errorMsg
  deriving Repr, DecidableEq

structure ZmqMsg where
  msgType : ZmqMsgType
  appEnv : Bytes
  data : Bytes
  deriving DecidableEq

inductive WsMsgType
  | subscribeMsg
  | unsubscribeMsg
  deriving Repr, DecidableEq

structure WsMsg where
  msgType : WsMsgType
  name : Bytes
  appEnv : Bytes
  channel : ReaderId
  deriving DecidableEq

/-- The JSON package: the total time of a message that can be decoded, and the text of an anomaly
message. -/
structure GoJson where
  extractTotalTime : Bytes → Option ℚ
  marshalAnomaly : ℚ → Bool → Option Bytes

/-- A message of the subscriber socket, as the handler passes it on to the dispatcher. -/
def zmqMsgHandler : List Bytes → Option ZmqMsg
  | [appEnv,data] => some ⟨if (strstr data (lit "total_time")).isSome then .perfMsg else .errorMsg,appEnv,data⟩
  | _ => none

def Channels.send (channels : Channels) (c : ReaderId) (data : Bytes) : Except Panic Channels := do
  let chan ← (channels c).send data
  return Function.update channels c chan

/-- StringRing.Send, and SendLastAnomalyMsg for the text that is not empty. -/
def sendAll (c : ReaderId) (channels : Channels) (data : List Bytes) : Except Panic Channels :=
  data.foldlM (fun channels s => channels.send c s) channels

def sendToWebSockets (ai : AppInfo) (channels : Channels) (data : Bytes) : Except Panic Channels :=
  ai.channels.toList.foldlM (fun channels entry => channels.send entry.2 data) channels

/-- The score of the last minute against the mean of the minutes before. -/
def anomalyScore (ai : AppInfo) : ℚ :=
  let mean := ai.lastMinute.mean
  let forecast := ai.lastHour.mean
  if 0 < ai.lastHour.size ∧ 0 < forecast+mean then |forecast-mean|/(forecast+mean) else 0

/-- The statistics of one message, and the anomaly message if a minute is complete. -/
def addTotalTime (json : GoJson) (ai : AppInfo) (totalTime : ℚ) : AppInfo × Option Bytes :=
  if ai.lastMinute.isFull then
    let score := anomalyScore ai
    let anomaly := json.marshalAnomaly score (decide (6/25 < score))
    ({ ai with
        lastHour := ai.lastHour.add ai.lastMinute.mean
        lastMinute := ai.lastMinute.reset.add totalTime
        lastAnomalyMsg := anomaly.getD ai.lastAnomalyMsg },anomaly)
  else ({ ai with lastMinute := ai.lastMinute.add totalTime },none)

/-- What a message changes in the state of its application, and what is sent to the web sockets. -/
def AppInfo.file (json : GoJson) (ai : AppInfo) (msg : ZmqMsg) : AppInfo × List Bytes :=
  match msg.msgType with
  | .perfMsg =>
    let ai := { ai with metrics := ai.metrics.add msg.data }
    match json.extractTotalTime msg.data with
    | none => (ai,[msg.data])
    | some totalTime =>
      let (ai,anomaly) := addTotalTime json ai totalTime
      (ai,anomaly.toList ++ [msg.data])
  | .errorMsg => ({ ai with errors := ai.errors.add msg.data },[msg.data])

def handleZeromqMsg (json : GoJson) (apps : ZHash AppInfo) (channels : Channels) (msg : ZmqMsg) :
    Except Panic (ZHash AppInfo × Channels) := do
  let filed := (getApp apps msg.appEnv).file json msg
  let channels ← filed.2.foldlM (sendToWebSockets filed.1) channels
  return (apps.insert msg.appEnv filed.1,channels)

def handleWebSocketMsg (apps : ZHash AppInfo) (channels : Channels) (msg : WsMsg) :
    Except Panic (ZHash AppInfo × Channels) :=
  let ai := getApp apps msg.appEnv
  match msg.msgType with
  | .subscribeMsg => do
    let ai := { ai with channels := ai.channels.insert msg.name msg.channel }
    let channels ← sendAll msg.channel channels ai.metrics.elements
    let channels ← sendAll msg.channel channels ai.errors.elements
    let channels ← sendAll msg.channel channels (if ai.lastAnomalyMsg = [] then [] else [ai.lastAnomalyMsg])
    return (apps.insert msg.appEnv ai,channels)
  | .unsubscribeMsg => do
    let ai := { ai with channels := ai.channels.erase msg.name }
    let chan ← (channels msg.channel).close
    return (apps.insert msg.appEnv ai,Function.update channels msg.channel chan)

end Logjam.LiveStream
