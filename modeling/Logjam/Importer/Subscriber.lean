import Logjam.Importer.Parser
import Logjam.Library.Traced
import Logjam.Util.DeviceTracker
import Logjam.Util.RoundTrip

/-! From the sockets of the subscriber to the JSON parser. The frames of a message are checked in
the subscriber, but the parser works on whatever it is passed; what it does with the frames is
recorded, so that accesses to absent frames can be told. -/
namespace Logjam.Importer
open Logjam.Library Logjam.Library.Traced

/-! The subscriber. -/

structure SubscriberState where
  tracker : DeviceTracker
  messageCount : ℕ
  messageBytes : ℕ
  messagesDevZero : ℕ
  metaInfoFailures : ℕ
  messageGapSize : ℕ
  messageDrops : ℕ
  messageBlocks : ℕ

def subscriberStateNew : SubscriberState := ⟨deviceTrackerNew,0,0,0,0,0,0,0⟩

/-- How the push socket takes a message: whether it is ready, and whether it accepts the message
before its timeout. -/
structure PushSocket where
  ready : Bool
  accepts : Bool

def processMetaInformationAndHandleHeartbeat (state : SubscriberState) (first spec metaFrame : Bytes) :
    Bool × SubscriberState :=
  let isHeartbeat := first == lit "heartbeat"
  match frameExtractMetaInfo metaFrame metaInfoEmpty with
  | (false,_) => (isHeartbeat,{ state with metaInfoFailures := state.metaInfoFailures+1 })
  | (true,m) =>
    if m.deviceNumber = 0 then (isHeartbeat,{ state with messagesDevZero := state.messagesDevZero+1 })
    else
      let pubSpec := if isHeartbeat then some (cstr spec) else none
      let (tracker,gap) := deviceTrackerCalculateGap state.tracker m pubSpec
      (isHeartbeat,
        { state with tracker := tracker, messageGapSize := state.messageGapSize+gap.toNat })

def countMessage (state : SubscriberState) (msg : List Bytes) : SubscriberState :=
  { state with
    messageCount := state.messageCount+1
    messageBytes := state.messageBytes+(msg.map List.length).sum }

/-- Send a message to the parsers; it is dropped if the socket does not take it in time. -/
def pushMessage (state : SubscriberState) (msg : List Bytes) (socket : PushSocket) :
    SubscriberState × Option (List Bytes) :=
  let state := if socket.ready then state else { state with messageBlocks := state.messageBlocks+1 }
  if socket.accepts then (state,some msg)
  else ({ state with messageDrops := state.messageDrops+1 },none)

def readRequestAndForward (state : SubscriberState) (msg : List Bytes) (socket : PushSocket) :
    SubscriberState × Option (List Bytes) :=
  let state := countMessage state msg
  match msg with
  | [_,_,_] => pushMessage state msg socket
  | [first,second,_,metaFrame] =>
    let (isHeartbeat,state) := processMetaInformationAndHandleHeartbeat state first second metaFrame
    if isHeartbeat then (state,none) else pushMessage state msg socket
  | _ => (state,none)

/-- What is left of a request on the ROUTER socket, and the envelope of the reply if the sender
waits for one. -/
def routerEnvelope (senderId empty : Bytes) (rest : List Bytes) : List Bytes × Option (List Bytes) :=
  if 0 < empty.length then (empty::rest,none) else (rest,some [senderId,empty])

def readRouterRequestForward (myFqdn : Bytes) (state : SubscriberState) (request : List Bytes)
    (socket : PushSocket) :
    Except Fault (SubscriberState × Option (List Bytes) × Option (List Bytes)) :=
  let state := countMessage state request
  match request with
  | senderId::empty::rest =>
    let (msg,envelope) := routerEnvelope senderId empty rest
    let reply := fun (answer : List Bytes) => envelope.map (· ++ answer)
    match msg with
    | [_,_,_] =>
      let (state,sent) := pushMessage state msg socket
      .ok (state,sent,reply [lit "202 Accepted"])
    | [first,second,_,metaFrame] =>
      let (isHeartbeat,state) := processMetaInformationAndHandleHeartbeat state first second metaFrame
      if isHeartbeat then .ok (state,none,reply [lit "202 Accepted"])
      else if first = lit "ping" then .ok (state,none,reply [lit "200 Pong",myFqdn])
      else
        let (state,sent) := pushMessage state msg socket
        .ok (state,sent,reply [lit "202 Accepted"])
    | _ => .ok (state,none,reply [lit "400 Bad Request"])
  -- the size of the missing delimiter is asked for
  | _ => .error .absentFrame

/-- A message that one of the two handlers has passed on to the parsers. -/
inductive PassedOn (myFqdn : Bytes) (msg : List Bytes) : Prop
  | sub (state : SubscriberState) (received : List Bytes) (socket : PushSocket)
      (sent : (readRequestAndForward state received socket).2 = some msg)
  | router (state next : SubscriberState) (request : List Bytes) (socket : PushSocket)
      (reply : Option (List Bytes))
      (sent : readRouterRequestForward myFqdn state request socket = .ok (next,some msg,reply))

/-! The parser. -/

/-- What the parser does with the frames of a message: it asks for the size or the data of a frame,
and it chooses the decompression method by meta fields that have been read from a frame, if any. -/
inductive FrameAccess
  | size (frame : Option Bytes)
  | data (frame : Option Bytes)
  | chooseMethod (metaFrame : Option Bytes)
  deriving DecidableEq

def zframeSize : Option Bytes → Traced FrameAccess Fault ℕ
  | some frame => perform (.size (some frame)) frame.length
  | none => failAt (.size none) .absentFrame

def zframeData : Option Bytes → Traced FrameAccess Fault Bytes
  | some frame => perform (.data (some frame)) frame
  | none => failAt (.data none) .absentFrame

structure ParserActor (n : ℕ) where
  parser : Parser n
  decompressionBuffer : Chunk

/-- The meta struct is on the stack, with arbitrary contents; the return code of
frame_extract_meta_info is not looked at. The first component is the frame the fields come from. -/
def extractMetaInfo (metaFrame : Option Bytes) (uninitialised : MsgMeta) :
    Traced FrameAccess Fault (Option Bytes × MsgMeta) := do
  let size ← zframeSize metaFrame
  if size = sizeofMsgMeta then
    let frame ← zframeData metaFrame
    return (some frame,(frameExtractMetaInfo frame uninitialised).2)
  else return (none,uninitialised)

/-- Decompression looks at the body only if it knows the method; on failure the stream is logged. -/
def decompressBody (codecs : Codecs) (rounds : ℕ) (method : UInt8) (buffer : Chunk)
    (streamFrame bodyFrame : Option Bytes) : Traced FrameAccess Fault Decompressed := do
  if method = zlibCompression ∨ method = snappyCompression ∨ method = lz4Compression then
    let source ← zframeData bodyFrame
    let _ ← zframeSize bodyFrame
    let result ← lift (decompressFrame codecs rounds source method buffer)
    if result.body = none then
      let _ ← zframeData streamFrame
      let _ ← zframeSize streamFrame
      return result
    else return result
  else
    let _ ← zframeData streamFrame
    let _ ← zframeSize streamFrame
    return ⟨none,buffer⟩

def readBody (codecs : Codecs) (rounds : ℕ) (method : UInt8) (buffer : Chunk)
    (streamFrame bodyFrame : Option Bytes) : Traced FrameAccess Fault Decompressed := do
  if method ≠ 0 then decompressBody codecs rounds method buffer streamFrame bodyFrame
  else
    let body ← zframeData bodyFrame
    let _ ← zframeSize bodyFrame
    return ⟨some body,buffer⟩

section
variable {n : ℕ} (env : Env n) (codecs : Codecs) (parseJsonData : Bytes → Option Json) (rounds : ℕ)
  (uninitialised : MsgMeta) (tracked : Bool)

/-- The part that follows the JSON parser, with the frames it asks for. -/
def forwardParsed (actor : ParserActor n) (streamFrame topicFrame : Option Bytes) (request : Json) :
    Traced FrameAccess Fault (ParserActor n) := do
  let topic ← zframeData topicFrame
  let _ ← zframeSize topicFrame
  let stream ← zframeData streamFrame
  let _ ← zframeSize streamFrame
  let parser ← lift (parseMsg env actor.parser ⟨stream,topic,request,tracked⟩)
  return { actor with parser := parser }

def parseMsgAndForwardInterestingRequests (actor : ParserActor n) (msg : List Bytes) :
    Traced FrameAccess Fault (ParserActor n) := do
  let (source,m) ← extractMetaInfo msg[3]? uninitialised
  perform (.chooseMethod source) ()
  let result ← readBody codecs rounds m.compressionMethod actor.decompressionBuffer msg[0]? msg[2]?
  let actor := { actor with decompressionBuffer := result.buffer }
  match result.body with
  | none => return actor
  | some body =>
    match parseJsonData body with
    | none => return actor
    | some request => forwardParsed env tracked actor msg[0]? msg[1]? request

end

/-! What is passed on. -/

lemma pushMessage_sent {state : SubscriberState} {msg sent : List Bytes} {socket : PushSocket}
    (h : (pushMessage state msg socket).2 = some sent) : sent = msg := by
  simp only [pushMessage] at h
  by_cases ha : socket.accepts = true
  · rw [if_pos ha] at h
    exact (Option.some.inj h).symm
  · rw [if_neg ha] at h
    cases h

lemma readRequestAndForward_sent {state : SubscriberState} {received msg : List Bytes}
    {socket : PushSocket} (h : (readRequestAndForward state received socket).2 = some msg) :
    msg.length = 3 ∨ msg.length = 4 := by
  unfold readRequestAndForward at h
  split at h
  · exact .inl (congrArg List.length (pushMessage_sent h))
  · dsimp only at h
    split at h
    · cases h
    · exact .inr (congrArg List.length (pushMessage_sent h))
  · cases h

lemma readRouterRequestForward_sent {myFqdn : Bytes} {state next : SubscriberState}
    {request msg : List Bytes} {socket : PushSocket} {reply : Option (List Bytes)}
    (h : readRouterRequestForward myFqdn state request socket = .ok (next,some msg,reply)) :
    msg.length = 3 ∨ msg.length = 4 := by
  unfold readRouterRequestForward at h
  split at h
  · rename_i senderId empty rest
    dsimp only at h
    split at h
    · rename_i heq
      simp only [Except.ok.injEq,Prod.mk.injEq] at h
      rw [pushMessage_sent h.2.1,heq]
      exact .inl rfl
    · rename_i heq
      split at h
      · simp at h
      · split at h
        · simp at h
        · simp only [Except.ok.injEq,Prod.mk.injEq] at h
          rw [pushMessage_sent h.2.1,heq]
          exact .inr rfl
    · simp at h
  · cases h

theorem PassedOn.length {myFqdn : Bytes} {msg : List Bytes} (h : PassedOn myFqdn msg) :
    msg.length = 3 ∨ msg.length = 4 := by
  cases h with
  | sub state received socket sent => exact readRequestAndForward_sent sent
  | router state next request socket reply sent => exact readRouterRequestForward_sent sent

/-- The frame is there, and a method is chosen by the fields of a valid meta frame. -/
def FrameAccess.Sound : FrameAccess → Prop
  | .size frame => frame ≠ none
  | .data frame => frame ≠ none
  | .chooseMethod metaFrame => ∃ frame, metaFrame = some frame ∧ ValidMeta frame

lemma keeps_zframeSize (frame : Bytes) : Keeps FrameAccess.Sound (zframeSize (some frame)) := by
  apply keeps_perform
  exact Option.some_ne_none frame

lemma keeps_zframeData (frame : Bytes) : Keeps FrameAccess.Sound (zframeData (some frame)) := by
  apply keeps_perform
  exact Option.some_ne_none frame

/-- The data and then the size of a frame that is there. -/
lemma keeps_frame (frame : Bytes) {α : Type} {rest : Bytes → Traced FrameAccess Fault α}
    (h : ∀ data, Keeps FrameAccess.Sound (rest data)) :
    Keeps FrameAccess.Sound (do
      let data ← zframeData (some frame)
      let _ ← zframeSize (some frame)
      rest data) :=
  (keeps_zframeData frame).bind fun data _ => (keeps_zframeSize frame).bind fun _ _ => h data

lemma keeps_readBody (codecs : Codecs) (rounds : ℕ) (method : UInt8) (buffer : Chunk) (stream body : Bytes) :
    Keeps FrameAccess.Sound (readBody codecs rounds method buffer (some stream) (some body)) := by
  refine Keeps.ite (fun _ => Keeps.ite (fun _ => ?_) fun _ => ?_) fun _ => ?_
  · refine keeps_frame body fun source => (keeps_lift _).bind fun result _ =>
      Keeps.ite (fun _ => ?_) fun _ => keeps_pure _
    exact keeps_frame stream fun _ => keeps_pure _
  · exact keeps_frame stream fun _ => keeps_pure _
  · exact keeps_frame body fun _ => keeps_pure _

section
variable {n : ℕ} (env : Env n) (codecs : Codecs) (parseJsonData : Bytes → Option Json) (rounds : ℕ)
  (uninitialised : MsgMeta) (tracked : Bool) (actor : ParserActor n)

lemma keeps_forwardParsed (actor : ParserActor n) (stream topic : Bytes) (request : Json) :
    Keeps FrameAccess.Sound (forwardParsed env tracked actor (some stream) (some topic) request) :=
  keeps_frame topic fun _ => keeps_frame stream fun _ => (keeps_lift _).bind fun _ _ => keeps_pure _

/-- The frame the meta fields come from, if the last frame has the right size. -/
def metaSource (frame : Bytes) : Option Bytes := if frame.length = sizeofMsgMeta then some frame else none

lemma extractMetaInfo_some (frame : Bytes) :
    ∃ m, (extractMetaInfo (some frame) uninitialised).result = .ok (metaSource frame,m) := by
  simp only [extractMetaInfo,zframeSize,zframeData,perform,metaSource,bind,pure]
  split
  · exact ⟨_,rfl⟩
  · exact ⟨_,rfl⟩

lemma keeps_extractMetaInfo (frame : Bytes) :
    Keeps FrameAccess.Sound (extractMetaInfo (some frame) uninitialised) :=
  (keeps_zframeSize frame).bind fun _ _ => Keeps.ite
    (fun _ => (keeps_zframeData frame).bind fun _ _ => keeps_pure _) fun _ => keeps_pure _

lemma sound_chooseMethod_iff (frame : Bytes) :
    (FrameAccess.chooseMethod (metaSource frame)).Sound ↔ ValidMeta frame := by
  unfold metaSource
  split
  · exact ⟨fun ⟨f,hf,hvalid⟩ => Option.some.inj hf ▸ hvalid,fun hvalid => ⟨frame,rfl,hvalid⟩⟩
  · rename_i hsize
    exact ⟨fun ⟨f,hf,_⟩ => (nomatch hf),fun hvalid => absurd hvalid.1 hsize⟩

/-- The parser gets along with a message of four frames, the last of which is a valid meta frame. -/
theorem keeps_parseMsg {stream topic body frame : Bytes} (h : ValidMeta frame) :
    Keeps FrameAccess.Sound (parseMsgAndForwardInterestingRequests env codecs parseJsonData rounds
      uninitialised tracked actor [stream,topic,body,frame]) := by
  refine (keeps_extractMetaInfo uninitialised frame).bind fun source hsource => ?_
  obtain ⟨m,hm⟩ := extractMetaInfo_some uninitialised frame
  obtain rfl := Except.ok.inj (hm.symm.trans hsource)
  refine (keeps_perform ((sound_chooseMethod_iff frame).mpr h) _).bind fun _ _ => ?_
  refine (keeps_readBody codecs rounds _ _ stream body).bind fun result _ => ?_
  split
  · exact keeps_pure _
  · split
    · exact keeps_pure _
    · exact keeps_forwardParsed env tracked _ stream topic _

/-- The size of the fourth frame is asked for first. -/
lemma mem_actions_of_absent {msg : List Bytes} (h : msg[3]? = none) :
    FrameAccess.size none ∈ (parseMsgAndForwardInterestingRequests env codecs parseJsonData rounds
      uninitialised tracked actor msg).actions := by
  apply actions_subset_bind
  apply actions_subset_bind
  rw [h]
  exact List.mem_singleton_self _

lemma mem_actions_chooseMethod {msg : List Bytes} {frame : Bytes} (h : msg[3]? = some frame) :
    FrameAccess.chooseMethod (metaSource frame) ∈ (parseMsgAndForwardInterestingRequests env codecs
      parseJsonData rounds uninitialised tracked actor msg).actions := by
  obtain ⟨m,hm⟩ := extractMetaInfo_some uninitialised frame
  rw [parseMsgAndForwardInterestingRequests,h,actions_bind_of_ok hm]
  apply List.mem_append_right
  apply actions_subset_bind
  exact List.mem_singleton_self _

/-- The parser gets along with exactly those messages it is passed that have a fourth frame, and a
valid one. -/
theorem parseMsg_sound_iff {myFqdn : Bytes} {msg : List Bytes} (hpassed : PassedOn myFqdn msg) :
    Keeps FrameAccess.Sound (parseMsgAndForwardInterestingRequests env codecs parseJsonData rounds
      uninitialised tracked actor msg) ↔
    ∃ stream topic body frame, msg = [stream,topic,body,frame] ∧ ValidMeta frame := by
  constructor
  · intro h
    rcases hpassed.length with hlen | hlen
    · have habsent : msg[3]? = none := List.getElem?_eq_none (by omega)
      exact absurd rfl (h _ (mem_actions_of_absent env codecs parseJsonData rounds uninitialised tracked
        actor habsent))
    · obtain ⟨stream,topic,body,frame,rfl⟩ := List.length_eq_four.mp hlen
      have hsound := h _ (mem_actions_chooseMethod env codecs parseJsonData rounds uninitialised tracked
        actor (rfl : [stream,topic,body,frame][3]? = some frame))
      exact ⟨stream,topic,body,frame,rfl,(sound_chooseMethod_iff frame).mp hsound⟩
  · rintro ⟨stream,topic,body,frame,rfl,hvalid⟩
    exact keeps_parseMsg env codecs parseJsonData rounds uninitialised tracked actor hvalid

end

/-- A parser that finds an empty object in every body. -/
def sampleParse (msg : List Bytes) : Traced FrameAccess Fault (ParserActor 10) :=
  parseMsgAndForwardInterestingRequests sampleEnv sampleCodecs (fun _ => some (.obj [])) 0 metaInfoEmpty
    false ⟨parserNew,initialDecompressionBufferSize⟩ msg

def sampleFrames : List Bytes := [lit "shop-production",lit "logs.shop",lit "\x7b\x7d"]

lemma passedOn_sampleFrames : PassedOn [] sampleFrames := .sub subscriberStateNew sampleFrames ⟨true,true⟩ rfl

theorem parseMsg_sound_sample :
    PassedOn [] (sampleFrames ++ [msgAddMetaInfo metaInfoEmpty]) ∧
      Keeps FrameAccess.Sound (sampleParse (sampleFrames ++ [msgAddMetaInfo metaInfoEmpty])) := by
  have hpassed : PassedOn [] (sampleFrames ++ [msgAddMetaInfo metaInfoEmpty]) :=
    .sub subscriberStateNew (sampleFrames ++ [msgAddMetaInfo metaInfoEmpty]) ⟨true,true⟩ rfl
  exact ⟨hpassed,(parseMsg_sound_iff sampleEnv sampleCodecs (fun _ => some (.obj [])) 0 metaInfoEmpty false
    ⟨parserNew,initialDecompressionBufferSize⟩ hpassed).mpr
      ⟨_,_,_,_,rfl,validMeta_msgAddMetaInfo rfl⟩⟩

/-- A message without meta frame, and one whose meta frame is too short. -/
theorem parseMsg_unsound :
    (PassedOn [] sampleFrames ∧ ¬Keeps FrameAccess.Sound (sampleParse sampleFrames)) ∧
    PassedOn [] (sampleFrames ++ [lit "short"]) ∧
      ¬Keeps FrameAccess.Sound (sampleParse (sampleFrames ++ [lit "short"])) := by
  refine ⟨⟨passedOn_sampleFrames,fun h => ?_⟩,
    .sub subscriberStateNew (sampleFrames ++ [lit "short"]) ⟨true,true⟩ rfl,fun h => ?_⟩
  · exact h _ (mem_actions_of_absent _ _ _ _ _ _ _ rfl) rfl
  · have hsound := h _ (mem_actions_chooseMethod _ _ _ _ _ _ _ rfl)
    exact absurd ((sound_chooseMethod_iff _).mp hsound) (by decide)

end Logjam.Importer
