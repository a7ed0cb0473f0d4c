import Logjam.Library.Run
import Logjam.Relay.Compressor
import Logjam.Relay.Handlers

/-! Runs of logjam-device with its compressor threads. A message that goes to the compressors comes
back to the same handler; the identifiers only serve to tell messages apart. -/
namespace Logjam.Relay.Device
open Logjam.Library

def heartBeatInterval : ℕ := 5

structure Config where
  compressionMethod : UInt8
  deviceNumber : UInt32
  myFqdn : Bytes
  pubPort : ℤ

/-- A message between the device and its compressors. -/
structure Flight where
  id : ℕ
  frames : List Bytes

structure System (n : ℕ) where
  device : State
  ticks : ℕ
  compressionBuffers : Fin n → Chunk
  nextId : ℕ
  waiting : List Flight
  finished : List Flight

def initial (config : Config) (n : ℕ) (now : UInt64) : System n where
  device := ⟨{ metaInfoEmpty with deviceNumber := config.deviceNumber },now,.none,.none⟩
  ticks := 0
  compressionBuffers := fun _ => initialCompressionBufferSize
  nextId := 0
  waiting := []
  finished := []

inductive Event (n : ℕ)
  | receive (first : Bytes) (rest : List Bytes)
  | compress (i : Fin n) (j : ℕ)
  | result (j : ℕ)
  | tick (now : UInt64)

/-- Heartbeats are published without identifier. -/
inductive Observation
  | received (id : ℕ) (frames : List Bytes)
  | published (id : Option ℕ) (frames : List Bytes)

variable {n : ℕ}

/-- The publisher drops messages for slow subscribers instead of refusing them, and the socket to
the compressors blocks. -/
def handle (config : Config) (fromCompressor : Bool) (state : State) (first : Bytes) (rest : List Bytes) :
    Handled State :=
  readZmqMessageAndForward config.compressionMethod fromCompressor true (fun _ => false) (fun _ => [])
    state first rest

def toCompressors (id : ℕ) (sent : Sent) : Option Flight :=
  if sent.socket = .compressorInput then some ⟨id,sent.frames⟩ else none

def toSubscribers (id : ℕ) (sent : Sent) : Option Observation :=
  if sent.socket = .publisher then some (.published (some id) sent.frames) else none

/-- The message has been handled; what it has been sent to is recorded. -/
def route (system : System n) (id : ℕ) (handled : Handled State) : System n × List Observation :=
  ({ system with
      device := handled.state
      waiting := system.waiting ++ handled.emitted.filterMap (toCompressors id) },
    handled.emitted.filterMap (toSubscribers id))

def sendHeartbeat (config : Config) (m : MsgMeta) : List Bytes :=
  [lit "heartbeat",lit "tcp://" ++ config.myFqdn ++ lit ":" ++ decimalInt config.pubPort,
    lit "\x7b\x7d",msgAddMetaInfo m]

def timerEvent (config : Config) (system : System n) (now : UInt64) : System n × List Observation :=
  let device := { system.device with
    globalTime := now
    received := { system.device.received with maxBytes := 0 }
    compressed := { system.device.compressed with maxBytes := 0 } }
  let system := { system with ticks := system.ticks+1 }
  if system.ticks%heartBeatInterval = 0 then
    let msgMeta := { device.msgMeta with
      compressionMethod := noCompression
      sequenceNumber := device.msgMeta.sequenceNumber+1
      createdMs := now }
    ({ system with device := { device with msgMeta := msgMeta } },
      [.published none (sendHeartbeat config msgMeta)])
  else ({ system with device := device },[])

def step (codecs : Codecs) (config : Config) (system : System n) :
    Event n → Except Fault (System n × List Observation)
  | .receive first rest =>
    let id := system.nextId
    let (system,out) := route { system with nextId := id+1 } id (handle config false system.device first rest)
    .ok (system,.received id (first::rest)::out)
  | .compress i j =>
    match system.waiting[j]? with
    | none => .ok (system,[])
    | some flight => do
      let (state,frames) ← handleCompressorRequest codecs 0
        ⟨config.compressionMethod,system.compressionBuffers i,false⟩ flight.frames
      return ({ system with
        compressionBuffers := Function.update system.compressionBuffers i state.compressionBuffer
        waiting := system.waiting.eraseIdx j
        finished := system.finished ++ [⟨flight.id,frames⟩] },[])
  | .result j =>
    match system.finished[j]? with
    | some ⟨id,first::rest⟩ =>
      .ok (route { system with finished := system.finished.eraseIdx j } id
        (handle config true system.device first rest))
    | _ => .ok (system,[])
  | .tick now => .ok (timerEvent config system now)

/-! What the handler makes of a message. -/

/-- The first three frames of a message and the meta information the handler sees in it. -/
inductive Seen : List Bytes → Bytes → Bytes → Bytes → MsgMeta → Prop
  | three (stream topic body : Bytes) : Seen [stream,topic,body] stream topic body metaInfoEmpty
  | four (stream topic body frame : Bytes) :
      Seen [stream,topic,body,frame] stream topic body (zmqMsgExtractMetaInfo frame metaInfoEmpty).2

/-- The global meta struct with the time of the message. -/
def stamped (state : State) (m : MsgMeta) : MsgMeta :=
  { state.msgMeta with createdMs := createdMs m state.globalTime }

/-- The global meta struct for the next message that is published. -/
def numbered (state : State) (m : MsgMeta) : MsgMeta :=
  { stamped state m with
    compressionMethod := m.compressionMethod
    sequenceNumber := state.msgMeta.sequenceNumber+1 }

variable {config : Config} {fromCompressor : Bool} {state : State} {first : Bytes} {rest : List Bytes}

theorem handle_dropped (h : ¬((first::rest).length = 3 ∨ (first::rest).length = 4)) :
    (handle config fromCompressor state first rest).emitted = [] ∧
      (handle config fromCompressor state first rest).state = state := by
  have hcounter : rest.length < 2 ∨ 3 < rest.length := by
    rw [List.length_cons] at h
    omega
  rw [handle,readZmqMessageAndForward,relayMessage_eq fun _ _ => rfl]
  simp only [dispatch,if_pos hcounter,and_self]

/-- A message of three or four frames is processed. -/
lemma handle_seen {stream topic body : Bytes} {m : MsgMeta} (h : Seen (first::rest) stream topic body m) :
    ∃ parts hasMeta, parts 0 = stream ∧ parts 1 = topic ∧ parts 2 = body ∧ receivedMeta parts hasMeta = m ∧
      (handle config fromCompressor state first rest).emitted =
        (process config.compressionMethod fromCompressor true state parts hasMeta).emitted ∧
      (handle config fromCompressor state first rest).state =
        (process config.compressionMethod fromCompressor true state parts hasMeta).state := by
  rw [handle,readZmqMessageAndForward,relayMessage_eq fun _ _ => rfl]
  cases h with
  | three => exact ⟨messageParts [first,topic,body] [] fun _ => [],false,rfl,rfl,rfl,rfl,rfl,rfl⟩
  | four _ _ _ frame =>
    exact ⟨messageParts [first,topic,body,frame] [] fun _ => [],true,rfl,rfl,rfl,rfl,rfl,rfl⟩

theorem handle_compress {stream topic body : Bytes} {m : MsgMeta}
    (h : Seen (first::rest) stream topic body m) (hc : config.compressionMethod ≠ 0)
    (hm : m.compressionMethod = 0) :
    (handle config fromCompressor state first rest).emitted =
        [⟨.compressorInput,[stream,topic,body,msgAddMetaInfo (stamped state m)]⟩] ∧
      (handle config fromCompressor state first rest).state.msgMeta = stamped state m := by
  obtain ⟨parts,hasMeta,rfl,rfl,rfl,rfl,hemitted,hstate⟩ := handle_seen h
  rw [hemitted,hstate]
  simp only [process]
  rw [if_pos ⟨hc,hm⟩]
  exact ⟨rfl,rfl⟩

theorem handle_publish {stream topic body : Bytes} {m : MsgMeta}
    (h : Seen (first::rest) stream topic body m)
    (hm : ¬(config.compressionMethod ≠ 0 ∧ m.compressionMethod = 0)) :
    (handle config fromCompressor state first rest).emitted =
        [⟨.publisher,[stream,topic,body,msgAddMetaInfo (numbered state m)]⟩] ∧
      (handle config fromCompressor state first rest).state.msgMeta = numbered state m := by
  obtain ⟨parts,hasMeta,rfl,rfl,rfl,rfl,hemitted,hstate⟩ := handle_seen h
  rw [hemitted,hstate]
  simp only [process]
  rw [if_neg hm]
  exact ⟨rfl,rfl⟩

lemma seen_or_not (frames : List Bytes) :
    (∃ stream topic body m, Seen frames stream topic body m) ∨ ¬(frames.length = 3 ∨ frames.length = 4) := by
  match frames with
  | [s,t,b] => exact .inl ⟨s,t,b,_,.three s t b⟩
  | [s,t,b,f] => exact .inl ⟨s,t,b,_,.four s t b f⟩
  | [] => exact .inr (by simp)
  | [_] => exact .inr (by simp)
  | [_,_] => exact .inr (by simp)
  | _::_::_::_::_::_ => exact .inr (by simp)

/-! The stages of a message, each as a relation between the received frames and those sent on. -/

def Compressed (codecs : Codecs) (method : UInt8) (body compressed : Bytes) : Prop :=
  ∃ buffer next, compressMessageData codecs method buffer [] body = .ok (next,compressed)

/-- An outgoing meta struct is well-formed and has the time of the message, if the message has one. -/
def Kept (m out : MsgMeta) : Prop :=
  out.version = metaInfoVersion ∧ (m.createdMs ≠ 0 → out.createdMs = m.createdMs)

def Waiting (config : Config) (frames sent : List Bytes) : Prop :=
  ∃ stream topic body m out, Seen frames stream topic body m ∧
    sent = [stream,topic,body,msgAddMetaInfo out] ∧ Kept m out ∧
    config.compressionMethod ≠ 0 ∧ m.compressionMethod = 0

def Finished (codecs : Codecs) (config : Config) (frames sent : List Bytes) : Prop :=
  ∃ stream topic body m newBody out, Seen frames stream topic body m ∧
    sent = [stream,topic,newBody,msgAddMetaInfo out] ∧ Kept m out ∧
    config.compressionMethod ≠ 0 ∧ m.compressionMethod = 0 ∧
    out.compressionMethod = config.compressionMethod ∧
    Compressed codecs config.compressionMethod body newBody

def Published (codecs : Codecs) (config : Config) (frames sent : List Bytes) : Prop :=
  ∃ stream topic body m newBody out, Seen frames stream topic body m ∧
    sent = [stream,topic,newBody,msgAddMetaInfo out] ∧ Kept m out ∧
    if config.compressionMethod ≠ 0 ∧ m.compressionMethod = 0 then
      out.compressionMethod = config.compressionMethod ∧
        Compressed codecs config.compressionMethod body newBody
    else newBody = body ∧ out.compressionMethod = m.compressionMethod

lemma createdMs_of_ne_zero {m : MsgMeta} (h : m.createdMs ≠ 0) (globalTime : UInt64) :
    createdMs m globalTime = m.createdMs := if_pos h

lemma kept_stamped (hv : state.msgMeta.version = metaInfoVersion) (m : MsgMeta) : Kept m (stamped state m) :=
  ⟨hv,fun h => createdMs_of_ne_zero h state.globalTime⟩

lemma kept_numbered (hv : state.msgMeta.version = metaInfoVersion) (m : MsgMeta) : Kept m (numbered state m) :=
  ⟨hv,fun h => createdMs_of_ne_zero h state.globalTime⟩

lemma finished_of_waiting {codecs : Codecs} {frames sent out : List Bytes} {buffer : Chunk} {rounds : ℕ}
    {next : CompressorState} (h : Waiting config frames sent)
    (eq : handleCompressorRequest codecs rounds ⟨config.compressionMethod,buffer,false⟩ sent =
      .ok (next,out)) : Finished codecs config frames out := by
  obtain ⟨stream,topic,body,m,o,hseen,rfl,hkept,hc,hm⟩ := h
  obtain ⟨grown,newBody,hbody,_,rfl⟩ := handleCompressorRequest_compress eq
  exact ⟨stream,topic,body,m,newBody,_,hseen,rfl,hkept,hc,hm,rfl,buffer,grown,hbody⟩

/-- The handler reads back the meta struct that was sent to the compressors. -/
lemma extract_msgAddMetaInfo {out : MsgMeta} (hv : out.version = metaInfoVersion) :
    (zmqMsgExtractMetaInfo (msgAddMetaInfo out) metaInfoEmpty).2 = { out with tag := metaInfoTag } := by
  rw [zmqMsgExtractMetaInfo,frameExtractMetaInfo_of_valid (validMeta_msgAddMetaInfo hv),
    decodedMeta_msgAddMetaInfo]

/-- A compressed message is published, with its compression method. -/
lemma published_of_finished {codecs : Codecs} {frames : List Bytes}
    (hv : state.msgMeta.version = metaInfoVersion) (h : Finished codecs config frames (first::rest)) :
    ∃ stream topic body m, (handle config fromCompressor state first rest).emitted =
        [⟨.publisher,[stream,topic,body,msgAddMetaInfo (numbered state m)]⟩] ∧
      (handle config fromCompressor state first rest).state.msgMeta = numbered state m ∧
      Published codecs config frames [stream,topic,body,msgAddMetaInfo (numbered state m)] := by
  obtain ⟨stream,topic,body,m,newBody,out,hseen,hsent,⟨hversion,hcreated⟩,hc,hm,hmethod,hbody⟩ := h
  have hback : Seen (first::rest) stream topic newBody { out with tag := metaInfoTag } := by
    rw [hsent,← extract_msgAddMetaInfo hversion]
    exact .four stream topic newBody (msgAddMetaInfo out)
  have hne : ¬(config.compressionMethod ≠ 0 ∧ out.compressionMethod = 0) := by
    rw [hmethod]
    exact fun h => h.1 h.2
  obtain ⟨hemitted,hstate⟩ := handle_publish hback hne
  refine ⟨_,_,_,_,hemitted,hstate,stream,topic,body,m,newBody,_,hseen,rfl,⟨hv,fun hm0 => ?_⟩,?_⟩
  · have ho : out.createdMs ≠ 0 := by rwa [hcreated hm0]
    exact (createdMs_of_ne_zero ho state.globalTime).trans (hcreated hm0)
  · rw [if_pos ⟨hc,hm⟩]
    exact ⟨hmethod,hbody⟩

/-! The ledger: the part of the state that accounts for messages, and how it moves. -/

structure Ledger where
  msgMeta : MsgMeta
  nextId : ℕ
  waiting : List Flight
  finished : List Flight

def System.ledger (system : System n) : Ledger :=
  ⟨system.device.msgMeta,system.nextId,system.waiting,system.finished⟩

/-- The global meta struct between two messages that are published. -/
def Unnumbered (m next : MsgMeta) : Prop :=
  next.deviceNumber = m.deviceNumber ∧ next.version = m.version ∧ next.sequenceNumber = m.sequenceNumber

/-- The global meta struct when a message is published. -/
def Next (m next : MsgMeta) : Prop :=
  next.deviceNumber = m.deviceNumber ∧ next.version = m.version ∧
    next.sequenceNumber = m.sequenceNumber+1

inductive Move (codecs : Codecs) (config : Config) (l : Ledger) : Ledger → List Observation → Prop
  | idle : Move codecs config l l []
  | drop (frames : List Bytes) (h : ¬(frames.length = 3 ∨ frames.length = 4)) :
      Move codecs config l { l with nextId := l.nextId+1 } [.received l.nextId frames]
  | queue {m : MsgMeta} {frames sent : List Bytes} (hm : Unnumbered l.msgMeta m)
      (h : Waiting config frames sent) :
      Move codecs config l ⟨m,l.nextId+1,l.waiting ++ [⟨l.nextId,sent⟩],l.finished⟩
        [.received l.nextId frames]
  | publish {m : MsgMeta} {frames : List Bytes} {stream topic body : Bytes} (hm : Next l.msgMeta m)
      (h : Published codecs config frames [stream,topic,body,msgAddMetaInfo m]) :
      Move codecs config l ⟨m,l.nextId+1,l.waiting,l.finished⟩
        [.received l.nextId frames,.published (some l.nextId) [stream,topic,body,msgAddMetaInfo m]]
  | finish {j : ℕ} {flight : Flight} {sent : List Bytes} (hj : l.waiting[j]? = some flight)
      (h : ∀ frames, Waiting config frames flight.frames → Finished codecs config frames sent) :
      Move codecs config l
        { l with waiting := l.waiting.eraseIdx j, finished := l.finished ++ [⟨flight.id,sent⟩] } []
  | deliver {m : MsgMeta} {j : ℕ} {flight : Flight} {stream topic body : Bytes}
      (hm : Next l.msgMeta m) (hj : l.finished[j]? = some flight)
      (h : ∀ frames, Finished codecs config frames flight.frames →
        Published codecs config frames [stream,topic,body,msgAddMetaInfo m]) :
      Move codecs config l { l with msgMeta := m, finished := l.finished.eraseIdx j }
        [.published (some flight.id) [stream,topic,body,msgAddMetaInfo m]]
  | heartbeat {m : MsgMeta} {stream topic body : Bytes} (hm : Next l.msgMeta m) :
      Move codecs config l { l with msgMeta := m }
        [.published none [stream,topic,body,msgAddMetaInfo m]]

/-! Every step of the device is a move of the ledger. -/

section
variable {system : System n} {id : ℕ} {handled : Handled State} {frames : List Bytes}

lemma route_dropped (h : handled.emitted = []) :
    route system id handled = ({ system with device := handled.state },[]) := by
  simp [route,h]

lemma route_compressorInput (h : handled.emitted = [⟨.compressorInput,frames⟩]) :
    route system id handled =
      ({ system with device := handled.state, waiting := system.waiting ++ [⟨id,frames⟩] },[]) := by
  simp [route,h,toCompressors,toSubscribers]

lemma route_publisher (h : handled.emitted = [⟨.publisher,frames⟩]) :
    route system id handled = ({ system with device := handled.state },[.published (some id) frames]) := by
  simp [route,h,toCompressors,toSubscribers]

end

lemma unnumbered_stamped (m : MsgMeta) : Unnumbered state.msgMeta (stamped state m) := ⟨rfl,rfl,rfl⟩

lemma next_numbered (m : MsgMeta) : Next state.msgMeta (numbered state m) := ⟨rfl,rfl,rfl⟩

lemma receive_move (codecs : Codecs) {system next : System n} {out : List Observation}
    (hv : system.device.msgMeta.version = metaInfoVersion)
    (h : step codecs config system (.receive first rest) = .ok (next,out)) :
    Move codecs config system.ledger next.ledger out := by
  simp only [step] at h
  rcases seen_or_not (first::rest) with ⟨stream,topic,body,m,hseen⟩ | hlen
  · by_cases hc : config.compressionMethod ≠ 0 ∧ m.compressionMethod = 0
    · obtain ⟨hemitted,hstate⟩ := handle_compress hseen hc.1 hc.2
      rw [route_compressorInput hemitted] at h
      obtain ⟨rfl,rfl⟩ := Prod.mk.inj (Except.ok.inj h)
      simp only [System.ledger,hstate]
      exact .queue (unnumbered_stamped m)
        ⟨stream,topic,body,m,_,hseen,rfl,kept_stamped hv m,hc.1,hc.2⟩
    · obtain ⟨hemitted,hstate⟩ := handle_publish hseen hc
      rw [route_publisher hemitted] at h
      obtain ⟨rfl,rfl⟩ := Prod.mk.inj (Except.ok.inj h)
      simp only [System.ledger,hstate]
      refine .publish (next_numbered m)
        ⟨stream,topic,body,m,body,_,hseen,rfl,kept_numbered hv m,?_⟩
      rw [if_neg hc]
      exact ⟨rfl,rfl⟩
  · obtain ⟨hemitted,hstate⟩ := handle_dropped hlen
    rw [route_dropped hemitted] at h
    obtain ⟨rfl,rfl⟩ := Prod.mk.inj (Except.ok.inj h)
    simp only [System.ledger,hstate]
    exact .drop (first::rest) hlen

lemma compress_move {codecs : Codecs} {system next : System n} {out : List Observation} {i : Fin n} {j : ℕ}
    (h : step codecs config system (.compress i j) = .ok (next,out)) :
    Move codecs config system.ledger next.ledger out := by
  simp only [step] at h
  cases hj : system.waiting[j]? with
  | none =>
    rw [hj] at h
    obtain ⟨rfl,rfl⟩ := Prod.mk.inj (Except.ok.inj h)
    exact .idle
  | some flight =>
    rw [hj] at h
    cases hr : handleCompressorRequest codecs 0
        ⟨config.compressionMethod,system.compressionBuffers i,false⟩ flight.frames with
    | error e => simp [hr,bind,Except.bind] at h
    | ok result =>
      obtain ⟨state,frames⟩ := result
      simp only [hr,bind,Except.bind,pure,Except.pure] at h
      obtain ⟨rfl,rfl⟩ := Prod.mk.inj (Except.ok.inj h)
      exact .finish hj fun _ hw => finished_of_waiting hw hr

lemma result_move {codecs : Codecs} {system next : System n} {out : List Observation} {j : ℕ}
    (hv : system.device.msgMeta.version = metaInfoVersion)
    (hf : ∀ flight ∈ system.finished, ∃ frames, Finished codecs config frames flight.frames)
    (h : step codecs config system (.result j) = .ok (next,out)) :
    Move codecs config system.ledger next.ledger out := by
  simp only [step] at h
  split at h
  · rename_i id first rest hj
    obtain ⟨frames,hfinished⟩ := hf _ (List.mem_of_getElem? hj)
    obtain ⟨stream,topic,body,m,hemitted,hstate,_⟩ := published_of_finished hv hfinished
    rw [route_publisher hemitted] at h
    obtain ⟨rfl,rfl⟩ := Prod.mk.inj (Except.ok.inj h)
    simp only [System.ledger,hstate]
    refine .deliver (l := system.ledger) (next_numbered m) hj fun other hother => ?_
    -- the handler sends one message, whichever received message this is the compressed form of
    obtain ⟨stream',topic',body',m',hemitted',_,hpublished⟩ := published_of_finished hv hother
    rw [hemitted] at hemitted'
    simp only [List.cons.injEq,Sent.mk.injEq,and_true,true_and] at hemitted'
    obtain ⟨rfl,rfl,rfl,hm⟩ := hemitted'
    rwa [hm]
  · obtain ⟨rfl,rfl⟩ := Prod.mk.inj (Except.ok.inj h)
    exact .idle

lemma tick_move {codecs : Codecs} {system next : System n} {out : List Observation} {now : UInt64}
    (h : step codecs config system (.tick now) = .ok (next,out)) :
    Move codecs config system.ledger next.ledger out := by
  simp only [step,timerEvent] at h
  split at h
  · obtain ⟨rfl,rfl⟩ := Prod.mk.inj (Except.ok.inj h)
    exact .heartbeat ⟨rfl,rfl,rfl⟩
  · obtain ⟨rfl,rfl⟩ := Prod.mk.inj (Except.ok.inj h)
    exact .idle

theorem step_move {codecs : Codecs} {system next : System n} {event : Event n} {out : List Observation}
    (hv : system.device.msgMeta.version = metaInfoVersion)
    (hf : ∀ flight ∈ system.finished, ∃ frames, Finished codecs config frames flight.frames)
    (h : step codecs config system event = .ok (next,out)) :
    Move codecs config system.ledger next.ledger out := by
  cases event with
  | receive first rest => exact receive_move codecs hv h
  | compress i j => exact compress_move h
  | result j => exact result_move hv hf h
  | tick now => exact tick_move h

/-! Numbering: the published messages carry consecutive numbers. -/

def Observation.publishedFrames : Observation → Option (List Bytes)
  | .published _ frames => some frames
  | .received _ _ => none

def publishedFrames (trace : List Observation) : List (List Bytes) :=
  trace.filterMap Observation.publishedFrames

/-- The message carries the number and the device. -/
def Numbered (config : Config) (number : ℕ) (sent : List Bytes) : Prop :=
  ∃ stream topic body m, sent = [stream,topic,body,msgAddMetaInfo m] ∧ m.version = metaInfoVersion ∧
    m.sequenceNumber = UInt64.ofNat number ∧ m.deviceNumber = config.deviceNumber

structure InSequence (config : Config) (l : Ledger) (trace : List Observation) : Prop where
  device : l.msgMeta.deviceNumber = config.deviceNumber
  version : l.msgMeta.version = metaInfoVersion
  counter : l.msgMeta.sequenceNumber = UInt64.ofNat (publishedFrames trace).length
  numbered : ∀ k sent, (publishedFrames trace)[k]? = some sent → Numbered config (k+1) sent

section
variable {codecs : Codecs} {l next : Ledger} {trace out : List Observation}

lemma publishedFrames_append (trace out : List Observation) :
    publishedFrames (trace ++ out) = publishedFrames trace ++ publishedFrames out :=
  List.filterMap_append

lemma InSequence.unnumbered (h : InSequence config l trace) (hm : Unnumbered l.msgMeta next.msgMeta)
    (hout : publishedFrames out = []) : InSequence config next (trace ++ out) := by
  have htrace : publishedFrames (trace ++ out) = publishedFrames trace := by
    rw [publishedFrames_append,hout,List.append_nil]
  refine ⟨hm.1.trans h.device,hm.2.1.trans h.version,?_,?_⟩
  · rw [htrace,hm.2.2,h.counter]
  · rw [htrace]
    exact h.numbered

lemma InSequence.published {stream topic body : Bytes} (h : InSequence config l trace)
    (hm : Next l.msgMeta next.msgMeta)
    (hout : publishedFrames out = [[stream,topic,body,msgAddMetaInfo next.msgMeta]]) :
    InSequence config next (trace ++ out) := by
  have htrace : publishedFrames (trace ++ out) =
      publishedFrames trace ++ [[stream,topic,body,msgAddMetaInfo next.msgMeta]] := by
    rw [publishedFrames_append,hout]
  have hnumber : next.msgMeta.sequenceNumber = UInt64.ofNat ((publishedFrames trace).length+1) := by
    rw [hm.2.2,h.counter,UInt64.ofNat_add]
    rfl
  refine ⟨hm.1.trans h.device,hm.2.1.trans h.version,?_,?_⟩
  · rw [htrace,List.length_append,hnumber]
    rfl
  · intro k sent hk
    rw [htrace] at hk
    rcases lt_or_ge k (publishedFrames trace).length with hlt | hge
    · rw [List.getElem?_append_left hlt] at hk
      exact h.numbered k sent hk
    · rw [List.getElem?_append_right hge,List.getElem?_singleton] at hk
      split at hk
      · obtain rfl := Option.some.inj hk
        obtain rfl : k = (publishedFrames trace).length := by omega
        exact ⟨stream,topic,body,next.msgMeta,rfl,hm.2.1.trans h.version,hnumber,hm.1.trans h.device⟩
      · cases hk

theorem InSequence.move (h : InSequence config l trace) (hmove : Move codecs config l next out) :
    InSequence config next (trace ++ out) := by
  cases hmove with
  | idle => exact h.unnumbered ⟨rfl,rfl,rfl⟩ rfl
  | drop frames hlen => exact h.unnumbered ⟨rfl,rfl,rfl⟩ rfl
  | queue hm hw => exact h.unnumbered hm rfl
  | publish hm hp => exact h.published hm rfl
  | finish hj hf => exact h.unnumbered ⟨rfl,rfl,rfl⟩ rfl
  | deliver hm hj hp => exact h.published hm rfl
  | heartbeat hm => exact h.published hm rfl

/-! Accounting: a message is waiting, finished or published, and only once. -/

def Observation.publishes (id : ℕ) : Observation → Bool
  | .published (some i) _ => i == id
  | _ => false

def flights (id : ℕ) (flights : List Flight) : ℕ := flights.countP (·.id == id)

/-- The copies of a message, published or on their way. -/
def copies (id : ℕ) (l : Ledger) (trace : List Observation) : ℕ :=
  trace.countP (·.publishes id)+flights id l.waiting+flights id l.finished

lemma flights_append (id : ℕ) (a : List Flight) (flight : Flight) :
    flights id (a ++ [flight]) = flights id a+if flight.id = id then 1 else 0 := by
  simp [flights,List.countP_append,List.countP_cons]

lemma flights_eraseIdx {a : List Flight} {j : ℕ} {flight : Flight} (hj : a[j]? = some flight) (id : ℕ) :
    flights id a = flights id (a.eraseIdx j)+if flight.id = id then 1 else 0 := by
  obtain ⟨hlt,rfl⟩ := List.getElem?_eq_some_iff.mp hj
  have hperm := (List.getElem_cons_eraseIdx_perm hlt).countP_eq (·.id == id)
  simp only [flights,List.countP_cons,beq_iff_eq] at hperm ⊢
  omega

/-- The reception of a message that is not dropped. -/
def Observation.accepts (id : ℕ) : Observation → Bool
  | .received i frames => i == id && (frames.length == 3 || frames.length == 4)
  | .published _ _ => false

lemma Seen.length {frames : List Bytes} {stream topic body : Bytes} {m : MsgMeta}
    (h : Seen frames stream topic body m) : frames.length = 3 ∨ frames.length = 4 := by
  cases h with
  | three => exact .inl rfl
  | four => exact .inr rfl

/-- A move adds one copy of a received message that is not dropped, and keeps all others. -/
theorem copies_move (hmove : Move codecs config l next out) (id : ℕ) :
    copies id next (trace ++ out) = copies id l trace+out.countP (·.accepts id) := by
  cases hmove with
  | idle => simp [copies]
  | drop frames hlen =>
    have hacc : Observation.accepts id (.received l.nextId frames) = false := by
      simpa [Observation.accepts] using fun _ => not_or.mp hlen
    simp [copies,List.countP_append,hacc,Observation.publishes]
  | queue hm hw =>
    obtain ⟨stream,topic,body,m,_,hseen,_⟩ := hw
    simp [copies,List.countP_append,List.countP_cons,flights_append,hseen.length,Observation.publishes,
      Observation.accepts]
    omega
  | publish hm hp =>
    obtain ⟨stream,topic,body,m,_,_,hseen,_⟩ := hp
    simp [copies,List.countP_append,List.countP_cons,hseen.length,Observation.publishes,
      Observation.accepts]
    omega
  | finish hj hf =>
    have hmoved := flights_eraseIdx hj id
    simp only [copies,flights_append,List.append_nil,List.countP_nil]
    omega
  | deliver hm hj hp =>
    have hmoved := flights_eraseIdx hj id
    simp [copies,List.countP_append,List.countP_cons,Observation.publishes,Observation.accepts]
    omega
  | heartbeat hm =>
    simp [copies,List.countP_append,Observation.publishes,Observation.accepts]

/-- A move receives at most one message, under the next identifier. -/
lemma Move.receipts (hmove : Move codecs config l next out) :
    (next.nextId = l.nextId ∧ ∀ id frames, .received id frames ∉ out) ∨
      ∃ frames tail, next.nextId = l.nextId+1 ∧ out = .received l.nextId frames::tail ∧
        ∀ id frames, Observation.received id frames ∉ tail := by
  cases hmove with
  | idle => exact .inl ⟨rfl,by simp⟩
  | drop frames hlen => exact .inr ⟨frames,[],rfl,rfl,by simp⟩
  | queue hm hw => exact .inr ⟨_,[],rfl,rfl,by simp⟩
  | publish hm hp => exact .inr ⟨_,_,rfl,rfl,by simp⟩
  | finish hj hf => exact .inl ⟨rfl,by simp⟩
  | deliver hm hj hp => exact .inl ⟨rfl,by simp⟩
  | heartbeat hm => exact .inl ⟨rfl,by simp⟩

structure Accounted (l : Ledger) (trace : List Observation) : Prop where
  balance : ∀ id, copies id l trace = trace.countP (·.accepts id)
  fresh : ∀ id frames, .received id frames ∈ trace → id < l.nextId
  unique : ∀ id frames other, .received id frames ∈ trace → .received id other ∈ trace → frames = other
  once : ∀ id frames, .received id frames ∈ trace → frames.length = 3 ∨ frames.length = 4 →
    trace.countP (·.accepts id) = 1

lemma countP_accepts_eq_zero {id : ℕ} {trace : List Observation}
    (h : ∀ frames, .received id frames ∉ trace) : trace.countP (·.accepts id) = 0 := by
  rw [List.countP_eq_zero]
  intro o ho hacc
  cases o with
  | published i frames => cases hacc
  | received i frames =>
    simp only [Observation.accepts,Bool.and_eq_true,beq_iff_eq] at hacc
    exact h frames (hacc.1 ▸ ho)

lemma Accounted.silent (h : Accounted l trace) (hid : next.nextId = l.nextId)
    (hnone : ∀ id frames, .received id frames ∉ out)
    (hbalance : ∀ id, copies id next (trace ++ out) = (trace ++ out).countP (·.accepts id)) :
    Accounted next (trace ++ out) := by
  have hold : ∀ id frames, .received id frames ∈ trace ++ out → .received id frames ∈ trace := by
    intro id frames hmem
    exact (List.mem_append.mp hmem).resolve_right (hnone id frames)
  refine ⟨hbalance,?_,?_,?_⟩
  · intro id frames hmem
    rw [hid]
    exact h.fresh id frames (hold id frames hmem)
  · intro id frames other hmem hother
    exact h.unique id frames other (hold id frames hmem) (hold id other hother)
  · intro id frames hmem hlen
    rw [List.countP_append,h.once id frames (hold id frames hmem) hlen,
      countP_accepts_eq_zero (hnone id)]

lemma received_append_cons {new frames : List Bytes} {tail : List Observation} {id newId : ℕ}
    (hnone : ∀ id frames, .received id frames ∉ tail)
    (hmem : .received id frames ∈ trace ++ .received newId new::tail) :
    .received id frames ∈ trace ∨ id = newId ∧ frames = new := by
  rcases List.mem_append.mp hmem with hmem | hmem
  · exact .inl hmem
  · rcases List.mem_cons.mp hmem with heq | hmem
    · exact .inr (Observation.received.inj heq)
    · exact absurd hmem (hnone id frames)

lemma Accounted.receipt {new : List Bytes} {tail : List Observation} (h : Accounted l trace)
    (hid : next.nextId = l.nextId+1) (hnone : ∀ id frames, .received id frames ∉ tail)
    (hbalance : ∀ id, copies id next (trace ++ .received l.nextId new::tail) =
      (trace ++ .received l.nextId new::tail).countP (·.accepts id)) :
    Accounted next (trace ++ .received l.nextId new::tail) := by
  refine ⟨hbalance,?_,?_,?_⟩
  · intro id frames hmem
    rw [hid]
    rcases received_append_cons hnone hmem with hold | ⟨rfl,-⟩
    · exact Nat.lt_succ_of_lt (h.fresh id frames hold)
    · exact Nat.lt_succ_self _
  · intro id frames other hmem hother
    rcases received_append_cons hnone hmem with hold | ⟨hlast,hframes⟩
    · rcases received_append_cons hnone hother with hold' | ⟨hlast,_⟩
      · exact h.unique id frames other hold hold'
      · exact absurd (h.fresh id frames hold) (by omega)
    · rcases received_append_cons hnone hother with hold' | ⟨_,hframes'⟩
      · exact absurd (h.fresh id other hold') (by omega)
      · rw [hframes,hframes']
  · intro id frames hmem hlen
    rw [List.countP_append,List.countP_cons,countP_accepts_eq_zero (hnone id)]
    rcases received_append_cons hnone hmem with hold | ⟨rfl,rfl⟩
    · have hne : ¬l.nextId = id := by
        have hlt := h.fresh id frames hold
        omega
      rw [h.once id frames hold hlen]
      simp [Observation.accepts,hne]
    · have hzero : trace.countP (·.accepts l.nextId) = 0 := countP_accepts_eq_zero fun f hf =>
        absurd (h.fresh l.nextId f hf) (by omega)
      rw [hzero]
      simp [Observation.accepts,hlen]

theorem Accounted.move (h : Accounted l trace) (hmove : Move codecs config l next out) :
    Accounted next (trace ++ out) := by
  have hbalance : ∀ id, copies id next (trace ++ out) = (trace ++ out).countP (·.accepts id) := by
    intro id
    rw [copies_move hmove,h.balance,List.countP_append]
  rcases hmove.receipts with ⟨hid,hnone⟩ | ⟨new,tail,hid,rfl,hnone⟩
  · exact h.silent hid hnone hbalance
  · exact h.receipt hid hnone hbalance

/-! Contents: what is sent on belongs to a received message. -/

structure Genuine (codecs : Codecs) (config : Config) (l : Ledger) (trace : List Observation) : Prop where
  waiting : ∀ flight ∈ l.waiting, ∃ frames, .received flight.id frames ∈ trace ∧
    Waiting config frames flight.frames
  finished : ∀ flight ∈ l.finished, ∃ frames, .received flight.id frames ∈ trace ∧
    Finished codecs config frames flight.frames
  published : ∀ id sent, .published (some id) sent ∈ trace → ∃ frames, .received id frames ∈ trace ∧
    Published codecs config frames sent

/-- Facts about a received message stay true as the run goes on. -/
lemma received_append {id : ℕ} {P : List Bytes → Prop}
    (h : ∃ frames, .received id frames ∈ trace ∧ P frames) (out : List Observation) :
    ∃ frames, .received id frames ∈ trace ++ out ∧ P frames := by
  obtain ⟨frames,hmem,hp⟩ := h
  exact ⟨frames,List.mem_append_left out hmem,hp⟩

lemma Genuine.extend (h : Genuine codecs config l trace)
    (hwaiting : ∀ flight ∈ next.waiting, flight ∈ l.waiting ∨
      ∃ frames, .received flight.id frames ∈ trace ++ out ∧ Waiting config frames flight.frames)
    (hfinished : ∀ flight ∈ next.finished, flight ∈ l.finished ∨
      ∃ frames, .received flight.id frames ∈ trace ++ out ∧ Finished codecs config frames flight.frames)
    (hpublished : ∀ id sent, .published (some id) sent ∈ out →
      ∃ frames, .received id frames ∈ trace ++ out ∧ Published codecs config frames sent) :
    Genuine codecs config next (trace ++ out) := by
  refine ⟨?_,?_,?_⟩
  · intro flight hmem
    rcases hwaiting flight hmem with hold | hnew
    · exact received_append (h.waiting flight hold) out
    · exact hnew
  · intro flight hmem
    rcases hfinished flight hmem with hold | hnew
    · exact received_append (h.finished flight hold) out
    · exact hnew
  · intro id sent hmem
    rcases List.mem_append.mp hmem with hold | hnew
    · exact received_append (h.published id sent hold) out
    · exact hpublished id sent hnew

theorem Genuine.move (h : Genuine codecs config l trace) (hmove : Move codecs config l next out) :
    Genuine codecs config next (trace ++ out) := by
  cases hmove with
  | idle => exact h.extend (fun _ => .inl) (fun _ => .inl) (by simp)
  | drop frames hlen => exact h.extend (fun _ => .inl) (fun _ => .inl) (by simp)
  | queue hm hw =>
    refine h.extend (fun flight hmem => ?_) (fun _ => .inl) (by simp)
    rcases List.mem_append.mp hmem with hold | hnew
    · exact .inl hold
    · obtain rfl := List.mem_singleton.mp hnew
      exact .inr ⟨_,by simp,hw⟩
  | publish hm hp =>
    refine h.extend (fun _ => .inl) (fun _ => .inl) fun id sent hmem => ?_
    simp only [List.mem_cons,List.not_mem_nil,or_false,reduceCtorEq,false_or,
      Observation.published.injEq,Option.some.injEq] at hmem
    obtain ⟨rfl,rfl⟩ := hmem
    exact ⟨_,by simp,hp⟩
  | finish hj hf =>
    refine h.extend (fun flight hmem => .inl (List.mem_of_mem_eraseIdx hmem)) (fun flight hmem => ?_) (by simp)
    rcases List.mem_append.mp hmem with hold | hnew
    · exact .inl hold
    · obtain rfl := List.mem_singleton.mp hnew
      obtain ⟨frames,hreceived,hw⟩ := h.waiting _ (List.mem_of_getElem? hj)
      exact .inr ⟨frames,List.mem_append_left _ hreceived,hf frames hw⟩
  | deliver hm hj hp =>
    refine h.extend (fun _ => .inl) (fun flight hmem => .inl (List.mem_of_mem_eraseIdx hmem))
      fun id sent hmem => ?_
    simp only [List.mem_singleton,Observation.published.injEq,Option.some.injEq] at hmem
    obtain ⟨rfl,rfl⟩ := hmem
    obtain ⟨frames,hreceived,hfin⟩ := h.finished _ (List.mem_of_getElem? hj)
    exact ⟨frames,List.mem_append_left _ hreceived,hp frames hfin⟩
  | heartbeat hm => exact h.extend (fun _ => .inl) (fun _ => .inl) (by simp)

end

/-! Runs of the device. -/

structure Sound (codecs : Codecs) (config : Config) (l : Ledger) (trace : List Observation) : Prop where
  inSequence : InSequence config l trace
  accounted : Accounted l trace
  genuine : Genuine codecs config l trace

lemma sound_initial (codecs : Codecs) (config : Config) (now : UInt64) :
    Sound codecs config (initial config n now).ledger [] where
  inSequence := ⟨rfl,rfl,rfl,by simp [publishedFrames]⟩
  accounted := ⟨fun _ => rfl,by simp,by simp,by simp⟩
  genuine := ⟨by simp [initial,System.ledger],by simp [initial,System.ledger],by simp⟩

theorem sound_step {codecs : Codecs} {system next : System n} {trace out : List Observation}
    {event : Event n} (h : Sound codecs config system.ledger trace)
    (eq : step codecs config system event = .ok (next,out)) :
    Sound codecs config next.ledger (trace ++ out) := by
  have hfinished : ∀ flight ∈ system.finished, ∃ frames, Finished codecs config frames flight.frames := by
    intro flight hmem
    obtain ⟨frames,_,hf⟩ := h.genuine.finished flight hmem
    exact ⟨frames,hf⟩
  have hmove := step_move h.inSequence.version hfinished eq
  exact ⟨h.inSequence.move hmove,h.accounted.move hmove,h.genuine.move hmove⟩

theorem sound_run {codecs : Codecs} {now : UInt64} {events : List (Event n)} {system : System n}
    {trace : List Observation}
    (run : Run (step codecs config) (fun _ _ => True) (initial config n now) events system trace) :
    Sound codecs config system.ledger trace :=
  Run.invariant (P := fun _ system trace => Sound codecs config system.ledger trace)
    (sound_initial codecs config now) (fun _ _ _ _ _ _ h _ eq => sound_step h eq) run

/-- The meta information of a message of three frames, or of four with a valid meta frame. -/
def messageMeta : List Bytes → Option MsgMeta
  | [_,_,_] => some metaInfoEmpty
  | [_,_,_,frame] => if ValidMeta frame then some (decodedMeta frame) else none
  | _ => none

/-- The published form of a message: first two frames and own time unchanged, and either body and
method unchanged or, for an uncompressed message if compression is configured, the configured
method and the compressed body. -/
def Faithful (codecs : Codecs) (config : Config) (frames : List Bytes) (m : MsgMeta) (sent : List Bytes) :
    Prop :=
  ∃ stream topic body tail newBody frame, frames = stream::topic::body::tail ∧
    sent = [stream,topic,newBody,frame] ∧ ValidMeta frame ∧
    (m.createdMs ≠ 0 → (decodedMeta frame).createdMs = m.createdMs) ∧
    if config.compressionMethod ≠ 0 ∧ m.compressionMethod = 0 then
      (decodedMeta frame).compressionMethod = config.compressionMethod ∧
        Compressed codecs config.compressionMethod body newBody
    else newBody = body ∧ (decodedMeta frame).compressionMethod = m.compressionMethod

lemma messageMeta_length {frames : List Bytes} {m : MsgMeta} (h : messageMeta frames = some m) :
    frames.length = 3 ∨ frames.length = 4 := by
  unfold messageMeta at h
  split at h
  · exact .inl rfl
  · exact .inr rfl
  · cases h

/-- The handler sees the meta information of a valid message. -/
lemma Seen.messageMeta_eq {frames : List Bytes} {stream topic body : Bytes} {m seen : MsgMeta}
    (h : Seen frames stream topic body seen) (hm : messageMeta frames = some m) : seen = m := by
  cases h with
  | three => exact Option.some.inj hm
  | four _ _ _ frame =>
    simp only [messageMeta,Option.ite_none_right_eq_some] at hm
    rw [zmqMsgExtractMetaInfo,frameExtractMetaInfo_of_valid hm.1]
    exact Option.some.inj hm.2

lemma Seen.frames_eq {frames : List Bytes} {stream topic body : Bytes} {m : MsgMeta}
    (h : Seen frames stream topic body m) : ∃ tail, frames = stream::topic::body::tail := by
  cases h with
  | three => exact ⟨[],rfl⟩
  | four _ _ _ frame => exact ⟨[frame],rfl⟩

lemma Published.faithful {codecs : Codecs} {frames sent : List Bytes} {m : MsgMeta}
    (h : Published codecs config frames sent) (hm : messageMeta frames = some m) :
    Faithful codecs config frames m sent := by
  obtain ⟨stream,topic,body,seen,newBody,out,hseen,rfl,⟨hversion,hcreated⟩,hbody⟩ := h
  obtain rfl := hseen.messageMeta_eq hm
  obtain ⟨tail,rfl⟩ := hseen.frames_eq
  refine ⟨stream,topic,body,tail,newBody,_,rfl,rfl,validMeta_msgAddMetaInfo hversion,?_,?_⟩
  · rw [decodedMeta_msgAddMetaInfo]
    exact hcreated
  · rw [decodedMeta_msgAddMetaInfo]
    exact hbody

/-- In every run, the published messages are numbered from one and name the device, and a valid
message is published at most once, exactly once if nothing is in flight, and in a faithful form. -/
theorem device_publishes_once {codecs : Codecs} {config : Config} {now : UInt64} {events : List (Event n)}
    {system : System n} {trace : List Observation}
    (run : Run (step codecs config) (fun _ _ => True) (initial config n now) events system trace) :
    (∀ k sent, (publishedFrames trace)[k]? = some sent → ∃ stream topic body frame,
      sent = [stream,topic,body,frame] ∧ ValidMeta frame ∧
      (decodedMeta frame).sequenceNumber = UInt64.ofNat (k+1) ∧
      (decodedMeta frame).deviceNumber = config.deviceNumber) ∧
    ∀ id frames m, .received id frames ∈ trace → messageMeta frames = some m →
      trace.countP (·.publishes id) ≤ 1 ∧
      (system.waiting = [] → system.finished = [] → trace.countP (·.publishes id) = 1) ∧
      ∀ sent, .published (some id) sent ∈ trace → Faithful codecs config frames m sent := by
  have h := sound_run run
  constructor
  · intro k sent hk
    obtain ⟨stream,topic,body,m,rfl,hversion,hnumber,hdevice⟩ := h.inSequence.numbered k sent hk
    refine ⟨stream,topic,body,_,rfl,validMeta_msgAddMetaInfo hversion,?_,?_⟩
    · rw [decodedMeta_msgAddMetaInfo]
      exact hnumber
    · rw [decodedMeta_msgAddMetaInfo]
      exact hdevice
  · intro id frames m hreceived hm
    have hlen := messageMeta_length hm
    have hone := (h.accounted.balance id).trans (h.accounted.once id frames hreceived hlen)
    simp only [copies,System.ledger] at hone
    refine ⟨by omega,fun hw hf => ?_,fun sent hsent => ?_⟩
    · rw [hw,hf] at hone
      simpa [flights] using hone
    · obtain ⟨other,hother,hpublished⟩ := h.genuine.published id sent hsent
      obtain rfl := h.accounted.unique id frames other hreceived hother
      exact hpublished.faithful hm

def sampleConfig : Config := ⟨snappyCompression,7,lit "localhost",9606⟩

def sampleMessage : List Bytes := [lit "shop-production",lit "logs.shop",lit "a"]

/-- A message goes through the only compressor, with a tick while it is there. -/
def sampleEvents : List (Event 1) :=
  [.receive (lit "shop-production") [lit "logs.shop",lit "a"],.tick 2000,.compress 0 0,.result 0]

theorem device_publishes_sample : ∃ (system : System 1) (trace : List Observation),
    Run (step ⟨sampleZlib,sampleSnappy,sampleLz4⟩ sampleConfig) (fun _ _ => True)
      (initial sampleConfig 1 1000) sampleEvents system trace ∧
    .received 0 sampleMessage ∈ trace ∧ trace.countP (·.publishes 0) = 1 ∧
    ∀ sent, .published (some 0) sent ∈ trace →
      Faithful ⟨sampleZlib,sampleSnappy,sampleLz4⟩ sampleConfig sampleMessage metaInfoEmpty sent := by
  have run : Run (step ⟨sampleZlib,sampleSnappy,sampleLz4⟩ sampleConfig) (fun _ _ => True)
      (initial sampleConfig 1 1000) sampleEvents _ _ :=
    ((((Run.start).step (by trivial) rfl).step (by trivial) rfl).step (by trivial) rfl).step
      (by trivial) rfl
  obtain ⟨_,hvalid⟩ := device_publishes_once run
  have h := hvalid 0 sampleMessage metaInfoEmpty (List.mem_append_left _ (List.mem_append_left _
    (List.mem_append_left _ (List.mem_append_right _ List.mem_cons_self)))) rfl
  refine ⟨_,_,run,?_,h.2.1 rfl rfl,h.2.2⟩
  exact List.mem_append_left _ (List.mem_append_left _
    (List.mem_append_left _ (List.mem_append_right _ List.mem_cons_self)))

end Logjam.Relay.Device
