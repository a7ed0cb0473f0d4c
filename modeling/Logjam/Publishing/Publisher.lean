import Logjam.Exporter.MetaFrame
import Logjam.Util.GoCompression

/-! The publisher of the Go programs. Callers compress their data and put it into a channel; one goroutine numbers
the messages and sends them, with heartbeats in between. -/
namespace Logjam.Publishing
open Logjam.GoUtil Logjam.Exporter

structure Opts where
  compression : UInt8
  deviceId : UInt32

structure PubMsg where
  appEnv : Bytes
  routingKey : Bytes
  data : Bytes
  compression : UInt8

/-- The publisher and the local variables of its goroutine. -/
structure Publisher where
  opts : Opts
  publisherChannel : List PubMsg
  sequenceNum : UInt64
  ticks : UInt64

def channelCapacity : ℕ := 10000

def heartbeatInterval : UInt64 := 5

def new (opts : Opts) : Publisher := ⟨opts,[],0,0⟩

/-- The arguments of a call of Publish. -/
@[ext] structure Call where
  appEnv : Bytes
  routingKey : Bytes
  data : Bytes
  deriving DecidableEq

/-- What is sent on the socket. -/
inductive Emission
  | message (frames : List Bytes)
  | heartbeat (frames : List Bytes)

def Emission.frames : Emission → List Bytes
  | .message frames => frames
  | .heartbeat frames => frames

/-- The encoded data, if it is shorter. -/
def shorter (encoded data : Bytes) (method : UInt8) : Bytes × UInt8 :=
  if encoded.length < data.length then (encoded,method) else (data,noCompression)

/-- The data and the compression of the message that Publish queues. -/
def usedCompression (codecs : GoUtil.Codecs) (opts : Opts) (data : Bytes) : Bytes × UInt8 :=
  if opts.compression = snappyCompression then shorter (codecs.snappy.encode data) data snappyCompression
  else if opts.compression = zlibCompression then shorter (codecs.zlib.encode data) data zlibCompression
  else (data,noCompression)

/-- A caller that finds the channel full waits, so its message is not queued yet. -/
def publish (codecs : GoUtil.Codecs) (p : Publisher) (call : Call) : Publisher × List Call :=
  if p.publisherChannel.length < channelCapacity then
    let (data,compression) := usedCompression codecs p.opts call.data
    ({ p with publisherChannel := p.publisherChannel ++ [⟨call.appEnv,call.routingKey,data,compression⟩] },[call])
  else (p,[])

def nextSequenceNumber (p : Publisher) : UInt64 × Publisher :=
  let p := { p with sequenceNum := p.sequenceNum+1 }
  (p.sequenceNum,p)

def sendMessage (p : Publisher) (currentTime : UInt64) (msg : PubMsg) : Publisher × Emission :=
  let (number,p) := nextSequenceNumber p
  (p,.message [msg.appEnv,msg.routingKey,msg.data,packInfo number p.opts.deviceId msg.compression currentTime])

def sendHeartbeat (p : Publisher) (spec : Bytes) (currentTime : UInt64) : Publisher × Emission :=
  let (number,p) := nextSequenceNumber p
  (p,.heartbeat [lit "heartbeat",spec,lit "\x7b\x7d",packInfo number p.opts.deviceId noCompression currentTime])

/-- The events carry the time at which a meta frame is packed. -/
inductive Event
  | publish (call : Call)
  | take (currentTime : UInt64)
  | tick (currentTime : UInt64)

/-- The state, what has been sent and which calls have been queued. -/
structure Reached where
  publisher : Publisher
  sent : List Emission
  queued : List Call

/-- One call, or one round of the loop of the goroutine. -/
def step (codecs : GoUtil.Codecs) (spec : Bytes) (s : Reached) : Event → Reached
  | .publish call =>
    let (p,queued) := publish codecs s.publisher call
    { s with publisher := p, queued := s.queued ++ queued }
  | .take currentTime =>
    match s.publisher.publisherChannel with
    | [] => s
    | msg::rest =>
      let (p,emission) := sendMessage { s.publisher with publisherChannel := rest } currentTime msg
      { s with publisher := p, sent := s.sent ++ [emission] }
  | .tick currentTime =>
    let p := { s.publisher with ticks := s.publisher.ticks+1 }
    if p.ticks%(heartbeatInterval*10) = 0 then
      let (p,emission) := sendHeartbeat p spec currentTime
      { s with publisher := p, sent := s.sent ++ [emission] }
    else { s with publisher := p }

def run (codecs : GoUtil.Codecs) (spec : Bytes) (opts : Opts) (events : List Event) : Reached :=
  events.foldl (step codecs spec) ⟨new opts,[],[]⟩

/-- What a receiver gets out of the frames: the C programs decode the meta frame, and the body is decompressed with
the method that it names. -/
def received (codecs : GoUtil.Codecs) : List Bytes → Option (Call × MsgMeta)
  | [appEnv,routingKey,body,metaFrame] =>
    let (valid,info) := frameExtractMetaInfo metaFrame metaInfoEmpty
    match valid,decompress codecs body info.compressionMethod with
    | true,.ok (data,none) => some (⟨appEnv,routingKey,data⟩,info)
    | _,_ => none
  | _ => none

/-- The call that a message can be traced back to. -/
def Emission.call (codecs : GoUtil.Codecs) : Emission → Option Call
  | .message frames => (received codecs frames).map Prod.fst
  | .heartbeat _ => none

def delivered (codecs : GoUtil.Codecs) (sent : List Emission) : List Call := sent.filterMap (Emission.call codecs)

variable {codecs : GoUtil.Codecs} {opts : Opts} {spec : Bytes} {s : Reached}

/-- A message in the channel and the call it comes from. -/
def Carries (codecs : GoUtil.Codecs) (msg : PubMsg) (call : Call) : Prop :=
  msg.appEnv = call.appEnv ∧ msg.routingKey = call.routingKey ∧
    decompress codecs msg.data msg.compression = .ok (call.data,none)

/-! Single messages. -/

lemma decompress_noCompression (codecs : GoUtil.Codecs) (data : Bytes) :
    decompress codecs data noCompression = .ok (data,none) := rfl

lemma decompress_shorter {encoded data : Bytes} {method : UInt8}
    (h : decompress codecs encoded method = .ok (data,none)) :
    decompress codecs (shorter encoded data method).1 (shorter encoded data method).2 = .ok (data,none) := by
  unfold shorter
  split_ifs
  · exact h
  · exact decompress_noCompression codecs data

lemma decompress_usedCompression (hz : codecs.zlib.Lawful) (hs : codecs.snappy.Lawful) (opts : Opts) (data : Bytes) :
    decompress codecs (usedCompression codecs opts data).1 (usedCompression codecs opts data).2 = .ok (data,none) := by
  unfold usedCompression
  split_ifs
  · exact decompress_shorter (roundTrips_of_ne hz hs (by decide) _ rfl)
  · exact decompress_shorter (roundTrips_of_ne hz hs (by decide) _ rfl)
  · exact decompress_noCompression codecs data

/-- The meta frame is accepted, so the body decides. -/
lemma received_packInfo {body data : Bytes} {compression : UInt8}
    (h : decompress codecs body compression = .ok (data,none)) (appEnv routingKey : Bytes) (number : UInt64)
    (deviceId : UInt32) (currentTime : UInt64) :
    received codecs [appEnv,routingKey,body,packInfo number deviceId compression currentTime] =
      some (⟨appEnv,routingKey,data⟩,⟨metaInfoTag,compression,metaInfoVersion,deviceId,currentTime,number⟩) := by
  have hmeta : frameExtractMetaInfo (packInfo number deviceId compression currentTime) metaInfoEmpty =
      (true,⟨metaInfoTag,compression,metaInfoVersion,deviceId,currentTime,number⟩) := by
    rw [packInfo_eq]
    exact frameExtractMetaInfo_msgAddMetaInfo rfl rfl _
  simp only [received,hmeta,h]

/-! Runs. -/

/-- The message with the given number has been accepted by a receiver. -/
def Accepted (codecs : GoUtil.Codecs) (opts : Opts) (number : ℕ) (emission : Emission) : Prop :=
  ∃ call info,received codecs emission.frames = some (call,info) ∧ info.sequenceNumber = UInt64.ofNat number ∧
    info.deviceNumber = opts.deviceId

structure Inv (codecs : GoUtil.Codecs) (opts : Opts) (s : Reached) : Prop where
  opts_eq : s.publisher.opts = opts
  number : s.publisher.sequenceNum = UInt64.ofNat s.sent.length
  accepted : ∀ k emission,s.sent[k]? = some emission → Accepted codecs opts (k+1) emission
  queued : ∃ pending,List.Forall₂ (Carries codecs) s.publisher.publisherChannel pending ∧
    delivered codecs s.sent ++ pending = s.queued

namespace Inv

lemma initial : Inv codecs opts ⟨new opts,[],[]⟩ where
  opts_eq := rfl
  number := rfl
  accepted k emission h := by simp at h
  queued := ⟨[],.nil,rfl⟩

lemma number_succ (h : Inv codecs opts s) : s.publisher.sequenceNum+1 = UInt64.ofNat (s.sent.length+1) := by
  rw [h.number]
  simp

/-- A meta frame with the next number is accepted. -/
lemma accepted_next (h : Inv codecs opts s) {emission : Emission} {appEnv routingKey body data : Bytes}
    {compression : UInt8} {currentTime : UInt64} (hdata : decompress codecs body compression = .ok (data,none))
    (hframes : emission.frames = [appEnv,routingKey,body,
      packInfo (s.publisher.sequenceNum+1) s.publisher.opts.deviceId compression currentTime]) :
    Accepted codecs opts (s.sent.length+1) emission := by
  refine ⟨_,_,(congrArg (received codecs) hframes).trans (received_packInfo hdata _ _ _ _ _),h.number_succ,?_⟩
  rw [← h.opts_eq]

/-- One more message that is accepted under the next number. -/
lemma accepted_concat (h : Inv codecs opts s) {emission : Emission}
    (haccepted : Accepted codecs opts (s.sent.length+1) emission) (k : ℕ) (e : Emission)
    (he : (s.sent ++ [emission])[k]? = some e) : Accepted codecs opts (k+1) e := by
  rcases Nat.lt_trichotomy k s.sent.length with hlt | rfl | hgt
  · rw [List.getElem?_append_left hlt] at he
    exact h.accepted k e he
  · rw [List.getElem?_concat_length] at he
    exact Option.some.inj he ▸ haccepted
  · rw [List.getElem?_eq_none (by rw [List.length_append,List.length_singleton]; omega)] at he
    cases he

theorem publish (hz : codecs.zlib.Lawful) (hs : codecs.snappy.Lawful) (h : Inv codecs opts s) (call : Call) :
    Inv codecs opts (step codecs spec s (.publish call)) := by
  unfold step Publishing.publish
  dsimp only
  split_ifs
  · obtain ⟨pending,hcarries,hqueued⟩ := h.queued
    refine ⟨h.opts_eq,h.number,h.accepted,pending ++ [call],?_,?_⟩
    · refine List.rel_append hcarries (.cons ⟨rfl,rfl,?_⟩ .nil)
      exact decompress_usedCompression hz hs _ _
    · rw [← List.append_assoc,hqueued]
  · refine ⟨h.opts_eq,h.number,h.accepted,?_⟩
    dsimp only
    rw [List.append_nil]
    exact h.queued

theorem take (h : Inv codecs opts s) (currentTime : UInt64) :
    Inv codecs opts (step codecs spec s (.take currentTime)) := by
  obtain ⟨pending,hcarries,hqueued⟩ := h.queued
  unfold step
  dsimp only
  cases hchannel : s.publisher.publisherChannel with
  | nil => exact h
  | cons msg rest =>
    rw [hchannel] at hcarries
    cases hcarries with
    | @cons _ call _ pending hmsg hrest =>
      obtain ⟨happEnv,hkey,hdata⟩ := hmsg
      have hreceived := received_packInfo hdata msg.appEnv msg.routingKey (s.publisher.sequenceNum+1)
        s.publisher.opts.deviceId currentTime
      refine ⟨h.opts_eq,?_,?_,pending,hrest,?_⟩
      · rw [List.length_append,List.length_singleton]
        exact h.number_succ
      · exact h.accepted_concat (h.accepted_next hdata rfl)
      · have hcall : (⟨msg.appEnv,msg.routingKey,call.data⟩ : Call) = call := Call.ext happEnv hkey rfl
        rw [hcall] at hreceived
        have hdelivered : delivered codecs [(sendMessage { s.publisher with publisherChannel := rest } currentTime msg).2] =
            [call] := by
          simp only [delivered,Emission.call,sendMessage,nextSequenceNumber,List.filterMap_cons,hreceived,Option.map_some,
            List.filterMap_nil]
        change delivered codecs (s.sent ++ [_]) ++ pending = s.queued
        rw [delivered,List.filterMap_append,← delivered,← delivered,hdelivered,List.append_assoc,List.singleton_append,
          hqueued]

theorem tick (h : Inv codecs opts s) (currentTime : UInt64) :
    Inv codecs opts (step codecs spec s (.tick currentTime)) := by
  unfold step
  dsimp only
  split_ifs
  · obtain ⟨pending,hcarries,hqueued⟩ := h.queued
    refine ⟨h.opts_eq,?_,?_,pending,hcarries,?_⟩
    · rw [List.length_append,List.length_singleton]
      exact h.number_succ
    · exact h.accepted_concat (h.accepted_next (decompress_noCompression codecs _) rfl)
    · rw [delivered,List.filterMap_append,← delivered,← hqueued]
      simp [sendHeartbeat,Emission.call]
  · exact ⟨h.opts_eq,h.number,h.accepted,h.queued⟩

end Inv

theorem run_inv (hz : codecs.zlib.Lawful) (hs : codecs.snappy.Lawful) (spec : Bytes) (opts : Opts) (events : List Event) :
    Inv codecs opts (run codecs spec opts events) := by
  unfold run
  induction events using List.reverseRecOn with
  | nil => exact .initial
  | append_singleton events event ih =>
    rw [List.foldl_concat]
    cases event with
    | publish call => exact ih.publish hz hs call
    | take currentTime => exact ih.take currentTime
    | tick currentTime => exact ih.tick currentTime

/-- In every run, each message is accepted and carries its number and the device, and the calls come out in the order
in which they have been queued, with those that are still in the channel at the end. -/
theorem run_decodable (codecs : GoUtil.Codecs) (hz : codecs.zlib.Lawful) (hs : codecs.snappy.Lawful) (spec : Bytes)
    (opts : Opts) (events : List Event) :
    let s := run codecs spec opts events
    (∀ k emission,s.sent[k]? = some emission → Accepted codecs opts (k+1) emission) ∧
    ∃ pending,List.Forall₂ (Carries codecs) s.publisher.publisherChannel pending ∧
      delivered codecs s.sent ++ pending = s.queued :=
  have hinv := run_inv hz hs spec opts events
  ⟨hinv.accepted,hinv.queued⟩

/-- One text that gets shorter and one that does not. -/
def sampleEvents : List Event :=
  [.publish ⟨lit "app-env",lit "logs.app.env",GoUtil.ones 64⟩,.tick 7,
    .publish ⟨lit "app-env",lit "logs.app.env",lit "2"⟩,.take 8,.take 9]

theorem run_decodable_sample :
    (run GoUtil.sampleCodecs (lit "tcp://host:9605") ⟨snappyCompression,5⟩ sampleEvents).sent.map Emission.frames =
      [[lit "app-env",lit "logs.app.env",GoUtil.sampleFrame,packInfo 1 5 snappyCompression 8],
        [lit "app-env",lit "logs.app.env",lit "2",packInfo 2 5 noCompression 9]] ∧
      delivered GoUtil.sampleCodecs (run GoUtil.sampleCodecs (lit "tcp://host:9605") ⟨snappyCompression,5⟩ sampleEvents).sent =
        [⟨lit "app-env",lit "logs.app.env",GoUtil.ones 64⟩,⟨lit "app-env",lit "logs.app.env",lit "2"⟩] := by
  refine ⟨by decide +kernel,?_⟩
  obtain ⟨-,pending,hcarries,hqueued⟩ := run_decodable GoUtil.sampleCodecs GoUtil.sampleZlib_lawful GoUtil.sampleSnappy_lawful
    (lit "tcp://host:9605") ⟨snappyCompression,5⟩ sampleEvents
  have hempty : (run GoUtil.sampleCodecs (lit "tcp://host:9605") ⟨snappyCompression,5⟩ sampleEvents).publisher.publisherChannel =
      [] := rfl
  rw [hempty,List.forall₂_nil_left_iff] at hcarries
  rw [hcarries,List.append_nil] at hqueued
  exact hqueued

end Logjam.Publishing
