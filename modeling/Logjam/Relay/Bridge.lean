import Logjam.Relay.Numbering
import Logjam.Util.RoundTrip

/-! Runs of logjam-pubsub-bridge with its decompressor threads. What comes back from a decompressor
enters the same handler as a received message, and only its compression method tells the two
apart. -/
namespace Logjam.Relay.Bridge
open Logjam.Library
open Device (Flight Seen flights flights_append flights_eraseIdx toCompressors)

/-- The number of decompressors is one more than the parameter; none is not allowed. -/
structure System (n : ℕ) where
  program : Program
  decompressionBuffers : Fin (n+1) → Chunk
  nextId : ℕ
  waiting : List Flight
  finished : List Flight

def initial (n : ℕ) (deviceNumber : UInt32) (now : UInt64) : System n where
  program := ⟨⟨{ metaInfoEmpty with deviceNumber := deviceNumber },now,deviceTrackerNew,.none,.none,0⟩,0⟩
  decompressionBuffers := fun _ => initialCompressionBufferSize
  nextId := 0
  waiting := []
  finished := []

/-- The flag says whether the publisher takes the message, if it comes to that; the number of rounds
is that of the gzip loop. -/
inductive Event (n : ℕ)
  | receive (first : Bytes) (rest : List Bytes) (accepts : Bool)
  | decompress (i : Fin (n+1)) (j rounds : ℕ)
  | result (j : ℕ) (accepts : Bool)
  | tick (now : UInt64)

inductive Observation
  | received (id : ℕ) (frames : List Bytes)
  | handed (id : ℕ)
  | forwarded (id : ℕ) (frames : List Bytes)
  | dropped (id : ℕ)

variable {n : ℕ}

/-- The socket to the decompressors blocks instead of refusing a message. -/
def handle (fromCompressor accepts : Bool) (state : State) (first : Bytes) (rest : List Bytes) : Handled State :=
  let r := reading first rest
  let blocking := (receivedMeta r.parts r.hasMeta).compressionMethod != 0
  readZmqMessageAndForward fromCompressor (accepts || blocking) r.interrupted r.stack state first rest

def sentOn (id : ℕ) (sent : Sent) : Observation :=
  match sent.socket with
  | .compressorInput => .handed id
  | .publisher => .forwarded id sent.frames

/-- The message has been handled; what it has been sent to is recorded. -/
def route (system : System n) (id : ℕ) (handled : Handled State) : System n × List Observation :=
  ({ system with
      program := { system.program with state := handled.state }
      waiting := system.waiting ++ handled.emitted.filterMap (toCompressors id) },
    if handled.emitted = [] then [.dropped id] else handled.emitted.map (sentOn id))

def advance (codecs : Codecs) (system : System n) : Event n → Except Fault (System n × List Observation)
  | .receive first rest accepts =>
    let id := system.nextId
    let (system,out) := route { system with nextId := id+1 } id
      (handle false accepts system.program.state first rest)
    .ok (system,.received id (first::rest)::out)
  | .decompress i j rounds =>
    match system.waiting[j]? with
    | none => .ok (system,[])
    | some flight => do
      let (state,frames) ← handleCompressorRequest codecs rounds
        ⟨noCompression,system.decompressionBuffers i,true⟩ flight.frames
      return ({ system with
        decompressionBuffers := Function.update system.decompressionBuffers i state.compressionBuffer
        waiting := system.waiting.eraseIdx j
        finished := system.finished ++ [⟨flight.id,frames⟩] },[])
  | .result j accepts =>
    match system.finished[j]? with
    | some ⟨id,first::rest⟩ =>
      .ok (route { system with finished := system.finished.eraseIdx j } id
        (handle true accepts system.program.state first rest))
    | _ => .ok (system,[])
  | .tick now => .ok ({ system with program := timerEvent system.program now },[])

/-! What is asked of the bridge. -/

/-- The event moves a message that is between the bridge and its decompressors. -/
def Event.Pending (system : System n) : Event n → Prop
  | .decompress _ j _ => j < system.waiting.length
  | .result j _ => j < system.finished.length
  | _ => False

/-- The moves left for the messages between the bridge and its decompressors. -/
def System.load (system : System n) : ℕ := 2*system.waiting.length+system.finished.length

def Observation.receives (id : ℕ) : Observation → Bool
  | .received i _ => i == id
  | _ => false

def Observation.hands (id : ℕ) : Observation → Bool
  | .handed i => i == id
  | _ => false

def Observation.settles (id : ℕ) : Observation → Bool
  | .forwarded i _ => i == id
  | .dropped i => i == id
  | _ => false

def Observation.isReceived : Observation → Bool
  | .received _ _ => true
  | _ => false

def Observation.isSettled : Observation → Bool
  | .forwarded _ _ => true
  | .dropped _ => true
  | _ => false

/-- Only such messages are received. -/
def Receives (received : List Bytes → Prop) (_ : System n) : Event n → Prop
  | .receive first rest _ => received (first::rest)
  | _ => True

/-- The runs of a bridge that receives only such messages. -/
abbrev Reaches (codecs : Codecs) (received : List Bytes → Prop) (start : System n) :
    List (Event n) → System n → List Observation → Prop :=
  Run (advance codecs) (Receives received) start

/-- No message goes round. It is handed to a decompressor once at most, and is on its way until it is
forwarded or dropped. Whichever decompressor takes a message, the call returns, and so does the
handler for the result; with every such move there is less to do, down to nothing. -/
structure NeverLoops (codecs : Codecs) (received : List Bytes → Prop) (start : System n) : Prop where
  handedOnce : ∀ events system trace, Reaches codecs received start events system trace →
    ∀ id, trace.countP (·.hands id) ≤ 1
  settled : ∀ events system trace, Reaches codecs received start events system trace →
    ∀ id, trace.countP (·.settles id)+flights id system.waiting+flights id system.finished =
      trace.countP (·.receives id)
  circulating : ∀ events system trace, Reaches codecs received start events system trace →
    system.waiting.length+system.finished.length+trace.countP (·.isSettled) ≤ trace.countP (·.isReceived)
  decompresses : ∀ events system trace, Reaches codecs received start events system trace →
    ∀ i, ∀ j < system.waiting.length, ∃ rounds next out,
      advance codecs system (.decompress i j rounds) = .ok (next,out)
  handles : ∀ events system trace, Reaches codecs received start events system trace →
    ∀ j < system.finished.length, ∀ accepts, ∃ next out,
      advance codecs system (.result j accepts) = .ok (next,out)
  shrinks : ∀ events system trace, Reaches codecs received start events system trace →
    ∀ event next out, event.Pending system → advance codecs system event = .ok (next,out) →
      next.load < system.load
  drains : ∀ events system trace, Reaches codecs received start events system trace →
    ∃ moves final out, Reaches codecs (fun _ => False) system moves final out ∧
      final.waiting = [] ∧ final.finished = []

/-! What a decompressor can make of a message. -/

/-- Sizes that the buffer of a decompressor gets to have. -/
inductive BufferSize (codecs : Codecs) (received : List Bytes → Prop) : Chunk → Prop
  | fresh : BufferSize codecs received initialCompressionBufferSize
  | after {buffer : Chunk} {frames : List Bytes} {stream topic body : Bytes} {m : MsgMeta} {rounds : ℕ}
      {result : Decompressed} (before : BufferSize codecs received buffer) (hr : received frames)
      (hseen : Seen frames stream topic body m) (hm : m.compressionMethod ≠ 0)
      (eq : decompressFrame codecs rounds body m.compressionMethod buffer = .ok result) :
      BufferSize codecs received result.buffer

/-- The call of decompress_frame with this buffer returns the body. -/
def Decompresses (codecs : Codecs) (buffer : Chunk) (method : UInt8) (body : Bytes) : Prop :=
  ∃ rounds data next, decompressFrame codecs rounds body method buffer = .ok ⟨some data,next⟩

variable {codecs : Codecs} {received : List Bytes → Prop}

lemma BufferSize.le {buffer : Chunk} (h : BufferSize codecs received buffer) : buffer ≤ maxBufferSize := by
  induction h with
  | fresh => decide
  | after _ _ _ _ eq ih => exact decompressFrame_buffer_le ih eq

/-- The number of rounds does not change the outcome. -/
lemma Decompresses.body_eq {buffer : Chunk} {method : UInt8} {body : Bytes}
    (h : Decompresses codecs buffer method body) (hb : buffer ≤ maxBufferSize) {rounds : ℕ}
    {result : Decompressed} (eq : decompressFrame codecs rounds body method buffer = .ok result) :
    ∃ data, result.body = some data := by
  obtain ⟨r,data,next,hok⟩ := h
  unfold decompressFrame at eq hok
  split_ifs at eq hok
  · obtain ⟨⟨d,_,hd,_⟩,_⟩ := decompressFrameGzip_ok hb eq
    exact ⟨d,hd⟩
  · rw [hok] at eq
    obtain rfl := Except.ok.inj eq
    exact ⟨data,rfl⟩
  · rw [hok] at eq
    obtain rfl := Except.ok.inj eq
    exact ⟨data,rfl⟩
  · cases hok

/-- A decompressor sends on what it was given, with another body and no method if it has succeeded. -/
lemma handleCompressorRequest_decompress (rounds : ℕ) (method : UInt8) (buffer : Chunk)
    (stream topic body : Bytes) (out : MsgMeta) :
    handleCompressorRequest codecs rounds ⟨method,buffer,true⟩ [stream,topic,body,msgAddMetaInfo out] =
      (decompressFrame codecs rounds body out.compressionMethod buffer).map fun result =>
        (⟨method,result.buffer,true⟩,match result.body with
          | none => [stream,topic,body,msgAddMetaInfo out]
          | some data => [stream,topic,data,msgAddMetaInfo { out with compressionMethod := noCompression }]) := by
  have hlen : ¬(msgAddMetaInfo out).length ≤ methodOffset := by
    rw [msgAddMetaInfo,length_memory]
    decide
  have hmethod : (msgAddMetaInfo out).getD methodOffset 0 = out.compressionMethod := rfl
  simp only [handleCompressorRequest,if_neg hlen,hmethod,set_methodOffset,if_true]
  cases decompressFrame codecs rounds body out.compressionMethod buffer with
  | error e => rfl
  | ok result =>
    obtain ⟨b,next⟩ := result
    cases b <;> rfl

/-! What the handler makes of a message. -/

section
variable (fromCompressor accepts : Bool) (state : State) {first : Bytes} {rest : List Bytes}

lemma last_reading (first : Bytes) (rest : List Bytes) : (reading first rest).reception.last = rest.length := by
  have h : receiveParts (fun _ => false) 0 first rest = ⟨_,0+rest.length,[]⟩ :=
    receiveParts_eq fun _ _ _ => rfl
  rw [Reading.reception,reading,h]
  exact Nat.zero_add _

lemma handle_dropped (h : ¬((first::rest).length = 3 ∨ (first::rest).length = 4)) :
    (handle fromCompressor accepts state first rest).emitted = [] := by
  have hincomplete : ¬(reading first rest).Complete := by
    rw [List.length_cons] at h
    rw [Reading.Complete,last_reading]
    omega
  exact (relayMessage_incomplete _ state hincomplete).2

lemma handle_seen {stream topic body : Bytes} {m : MsgMeta} (h : Seen (first::rest) stream topic body m) :
    ∃ parts hasMeta, parts 0 = stream ∧ parts 1 = topic ∧ parts 2 = body ∧ receivedMeta parts hasMeta = m ∧
      (handle fromCompressor accepts state first rest).emitted =
        (process fromCompressor (accepts || m.compressionMethod != 0) state parts hasMeta).emitted := by
  have hcomplete : (reading first rest).Complete := by
    have hlength := h.length
    rw [List.length_cons] at hlength
    rw [Reading.Complete,last_reading]
    omega
  have hemitted := (relayMessage_complete (process fromCompressor
    (accepts || (receivedMeta (reading first rest).parts (reading first rest).hasMeta).compressionMethod != 0))
    state hcomplete).2
  refine ⟨(reading first rest).parts,(reading first rest).hasMeta,?_⟩
  cases h with
  | three => exact ⟨rfl,rfl,rfl,rfl,hemitted⟩
  | four _ _ _ frame => exact ⟨rfl,rfl,rfl,rfl,hemitted⟩

lemma handle_compressed {stream topic body : Bytes} {m : MsgMeta}
    (h : Seen (first::rest) stream topic body m) (hm : m.compressionMethod ≠ 0) :
    ∃ out : MsgMeta, out.compressionMethod = m.compressionMethod ∧
      (handle fromCompressor accepts state first rest).emitted =
        [⟨.compressorInput,[stream,topic,body,msgAddMetaInfo out]⟩] := by
  obtain ⟨parts,hasMeta,rfl,rfl,rfl,rfl,hemitted⟩ := handle_seen fromCompressor accepts state h
  have hblocking : ((receivedMeta parts hasMeta).compressionMethod != 0) = true := bne_iff_ne.mpr hm
  refine ⟨stamped state (receivedMeta parts hasMeta),rfl,?_⟩
  rw [hemitted,hblocking,Bool.or_true,(process_compressed fromCompressor true state hm).1]
  rfl

lemma handle_plain {stream topic body : Bytes} {m : MsgMeta}
    (h : Seen (first::rest) stream topic body m) (hm : m.compressionMethod = 0) :
    (handle fromCompressor accepts state first rest).emitted = [] ∨
      ∃ frames, (handle fromCompressor accepts state first rest).emitted = [⟨.publisher,frames⟩] := by
  obtain ⟨parts,hasMeta,rfl,rfl,rfl,rfl,hemitted⟩ := handle_seen fromCompressor accepts state h
  have hblocking : ((receivedMeta parts hasMeta).compressionMethod != 0) = false := by simp [hm]
  rw [hemitted,hblocking,Bool.or_false]
  by_cases hh : isHeartbeat parts = true
  · exact .inl (process_heartbeat fromCompressor accepts state hm hh).1
  · rw [(process_data fromCompressor accepts state hm hh).1]
    cases accepts with
    | false => exact .inl rfl
    | true => exact .inr ⟨_,rfl⟩

end

/-! The ledger: the part of the state that accounts for messages, and how it moves as long as every
message can be decompressed. -/

structure Ledger where
  nextId : ℕ
  waiting : List Flight
  finished : List Flight

def System.ledger (system : System n) : Ledger := ⟨system.nextId,system.waiting,system.finished⟩

/-- A message is forwarded or dropped. -/
inductive Settles (id : ℕ) : Observation → Prop
  | forwarded (frames : List Bytes) : Settles id (.forwarded id frames)
  | dropped : Settles id (.dropped id)

inductive Move (l : Ledger) : Ledger → List Observation → Prop
  | idle : Move l l []
  | settle {o : Observation} (frames : List Bytes) (ho : Settles l.nextId o) :
      Move l { l with nextId := l.nextId+1 } [.received l.nextId frames,o]
  | hand (frames sent : List Bytes) :
      Move l { l with nextId := l.nextId+1, waiting := l.waiting ++ [⟨l.nextId,sent⟩] }
        [.received l.nextId frames,.handed l.nextId]
  | finish {j : ℕ} {flight : Flight} (hj : l.waiting[j]? = some flight) (sent : List Bytes) :
      Move l { l with waiting := l.waiting.eraseIdx j, finished := l.finished ++ [⟨flight.id,sent⟩] } []
  | deliver {j : ℕ} {flight : Flight} {o : Observation} (hj : l.finished[j]? = some flight)
      (ho : Settles flight.id o) : Move l { l with finished := l.finished.eraseIdx j } [o]

/-- A message for the decompressors, as it was received and as it was sent on. -/
def Handed (received : List Bytes → Prop) (sent : List Bytes) : Prop :=
  ∃ frames stream topic body m, ∃ out : MsgMeta, received frames ∧ Seen frames stream topic body m ∧
    m.compressionMethod ≠ 0 ∧ sent = [stream,topic,body,msgAddMetaInfo out] ∧
    out.compressionMethod = m.compressionMethod

/-- A message that will not be handed to a decompressor again. -/
def Plain (sent : List Bytes) : Prop :=
  ∃ stream topic body, ∃ out : MsgMeta, sent = [stream,topic,body,msgAddMetaInfo out] ∧
    out.compressionMethod = 0

/-- What holds between the events of a run. -/
structure Sound (codecs : Codecs) (received : List Bytes → Prop) (system : System n) : Prop where
  buffers : ∀ i, BufferSize codecs received (system.decompressionBuffers i)
  waiting : ∀ flight ∈ system.waiting, Handed received flight.frames
  finished : ∀ flight ∈ system.finished, Plain flight.frames

/-- Every compressed message can be decompressed, whatever the size of the buffer. -/
def AllDecompress (codecs : Codecs) (received : List Bytes → Prop) : Prop :=
  ∀ frames stream topic body m, received frames → Seen frames stream topic body m →
    m.compressionMethod ≠ 0 → ∀ buffer, BufferSize codecs received buffer →
      Decompresses codecs buffer m.compressionMethod body

lemma compressionMethod_extract (out : MsgMeta) :
    (zmqMsgExtractMetaInfo (msgAddMetaInfo out) metaInfoEmpty).2.compressionMethod =
      out.compressionMethod := by
  have hlength : (msgAddMetaInfo out).length = sizeofMsgMeta := length_memory _
  rw [zmqMsgExtractMetaInfo,frameExtractMetaInfo,if_pos hlength]
  have hdecoded := congrArg MsgMeta.compressionMethod (decodedMeta_msgAddMetaInfo out)
  exact hdecoded

section
variable (system : System n) (id : ℕ) {handled : Handled State} {frames : List Bytes}

lemma route_dropped (h : handled.emitted = []) :
    route system id handled =
      ({ system with program := { system.program with state := handled.state } },[.dropped id]) := by
  simp [route,h]

lemma route_compressorInput (h : handled.emitted = [⟨.compressorInput,frames⟩]) :
    route system id handled =
      ({ system with
          program := { system.program with state := handled.state }
          waiting := system.waiting ++ [⟨id,frames⟩] },[.handed id]) := by
  simp [route,h,toCompressors,sentOn]

lemma route_publisher (h : handled.emitted = [⟨.publisher,frames⟩]) :
    route system id handled =
      ({ system with program := { system.program with state := handled.state } },
        [.forwarded id frames]) := by
  simp [route,h,toCompressors,sentOn]

/-- A message that is not compressed leaves the bridge. -/
lemma route_settles (h : handled.emitted = [] ∨ ∃ frames, handled.emitted = [⟨.publisher,frames⟩]) :
    ∃ o, Settles id o ∧ route system id handled =
      ({ system with program := { system.program with state := handled.state } },[o]) := by
  rcases h with h | ⟨frames,h⟩
  · exact ⟨_,.dropped,route_dropped system id h⟩
  · exact ⟨_,.forwarded frames,route_publisher system id h⟩

end

lemma Sound.initial (codecs : Codecs) (received : List Bytes → Prop) (deviceNumber : UInt32) (now : UInt64) :
    Sound codecs received (initial n deviceNumber now) where
  buffers _ := .fresh
  waiting _ h := nomatch h
  finished _ h := nomatch h

/-- The system after a compressed message was received. -/
def System.hand (system : System n) (program : Program) (sent : List Bytes) : System n :=
  { system with
    program := program
    nextId := system.nextId+1
    waiting := system.waiting ++ [⟨system.nextId,sent⟩] }

/-- A compressed message is handed to the decompressors. -/
lemma advance_receive (codecs : Codecs) {stream topic body first : Bytes} {rest : List Bytes} {m : MsgMeta}
    (hseen : Seen (first::rest) stream topic body m) (hm : m.compressionMethod ≠ 0) (system : System n)
    (accepts : Bool) :
    ∃ program, ∃ sent : MsgMeta, sent.compressionMethod = m.compressionMethod ∧
      advance codecs system (.receive first rest accepts) =
        .ok (system.hand program [stream,topic,body,msgAddMetaInfo sent],
          [.received system.nextId (first::rest),.handed system.nextId]) := by
  obtain ⟨sent,hmethod,hemitted⟩ := handle_compressed false accepts system.program.state hseen hm
  refine ⟨⟨(handle false accepts system.program.state first rest).state,system.program.ticks⟩,sent,hmethod,?_⟩
  simp only [advance]
  rw [route_compressorInput _ _ hemitted]
  rfl

/-- A message that is received is handed to the decompressors if it is compressed, and leaves the
bridge otherwise. -/
lemma move_receive {system next : System n} {first : Bytes} {rest : List Bytes} {accepts : Bool}
    {out : List Observation} (hs : Sound codecs received system) (hr : received (first::rest))
    (eq : advance codecs system (.receive first rest accepts) = .ok (next,out)) :
    Move system.ledger next.ledger out ∧ Sound codecs received next := by
  rcases Device.seen_or_not (first::rest) with ⟨stream,topic,body,m,hseen⟩ | hlength
  · by_cases hm : m.compressionMethod = 0
    · obtain ⟨o,ho,hroute⟩ := route_settles { system with nextId := system.nextId+1 } system.nextId
        (handle_plain false accepts system.program.state hseen hm)
      simp only [advance,hroute,Except.ok.injEq,Prod.mk.injEq] at eq
      obtain ⟨rfl,rfl⟩ := eq
      exact ⟨.settle _ ho,hs.buffers,hs.waiting,hs.finished⟩
    · obtain ⟨program,sent,hmethod,hadvance⟩ := advance_receive codecs hseen hm system accepts
      rw [hadvance] at eq
      simp only [Except.ok.injEq,Prod.mk.injEq] at eq
      obtain ⟨rfl,rfl⟩ := eq
      refine ⟨.hand _ _,hs.buffers,?_,hs.finished⟩
      intro flight hflight
      rcases List.mem_append.mp hflight with hflight | hflight
      · exact hs.waiting flight hflight
      · obtain rfl := List.mem_singleton.mp hflight
        exact ⟨_,stream,topic,body,m,sent,hr,hseen,hm,rfl,hmethod⟩
  · have hroute := route_dropped { system with nextId := system.nextId+1 } system.nextId
      (handle_dropped false accepts system.program.state hlength)
    simp only [advance,hroute,Except.ok.injEq,Prod.mk.injEq] at eq
    obtain ⟨rfl,rfl⟩ := eq
    exact ⟨.settle _ .dropped,hs.buffers,hs.waiting,hs.finished⟩

/-- A message on its way through a decompressor. -/
lemma advance_decompress (codecs : Codecs) {system : System n} {flight : Flight} {stream topic body : Bytes} {sent : MsgMeta}
    {j : ℕ} (hj : system.waiting[j]? = some flight)
    (hflight : flight.frames = [stream,topic,body,msgAddMetaInfo sent]) (i : Fin (n+1)) (rounds : ℕ) :
    advance codecs system (.decompress i j rounds) =
      (decompressFrame codecs rounds body sent.compressionMethod (system.decompressionBuffers i)).map
        fun result => ({ system with
          decompressionBuffers := Function.update system.decompressionBuffers i result.buffer
          waiting := system.waiting.eraseIdx j
          finished := system.finished ++ [⟨flight.id,match result.body with
            | none => [stream,topic,body,msgAddMetaInfo sent]
            | some data =>
              [stream,topic,data,msgAddMetaInfo { sent with compressionMethod := noCompression }]⟩] },[]) := by
  simp only [advance,hj,hflight,handleCompressorRequest_decompress]
  cases decompressFrame codecs rounds body sent.compressionMethod (system.decompressionBuffers i) with
  | error e => rfl
  | ok result => rfl

lemma bufferSize_update {buffers : Fin (n+1) → Chunk} {grown : Chunk}
    (h : ∀ k, BufferSize codecs received (buffers k)) (i : Fin (n+1))
    (hgrown : BufferSize codecs received grown) (k : Fin (n+1)) :
    BufferSize codecs received (Function.update buffers i grown k) := by
  rcases eq_or_ne k i with rfl | hk
  · rwa [Function.update_self]
  · rw [Function.update_of_ne hk]
    exact h k

lemma move_decompress {system next : System n} {i : Fin (n+1)} {j rounds : ℕ} {out : List Observation}
    (hall : AllDecompress codecs received) (hs : Sound codecs received system)
    (eq : advance codecs system (.decompress i j rounds) = .ok (next,out)) :
    Move system.ledger next.ledger out ∧ Sound codecs received next := by
  cases hj : system.waiting[j]? with
  | none =>
    simp only [advance,hj,Except.ok.injEq,Prod.mk.injEq] at eq
    obtain ⟨rfl,rfl⟩ := eq
    exact ⟨.idle,hs⟩
  | some flight =>
    obtain ⟨frames,stream,topic,body,m,sent,hr,hseen,hm,hflight,hmethod⟩ :=
      hs.waiting flight (List.mem_of_getElem? hj)
    rw [advance_decompress codecs hj hflight,hmethod] at eq
    cases hd : decompressFrame codecs rounds body m.compressionMethod (system.decompressionBuffers i) with
    | error e =>
      rw [hd] at eq
      cases eq
    | ok result =>
      have hdecompresses := hall frames stream topic body m hr hseen hm _ (hs.buffers i)
      obtain ⟨data,hdata⟩ := hdecompresses.body_eq (hs.buffers i).le hd
      rw [hd] at eq
      simp only [Except.map,Except.ok.injEq,Prod.mk.injEq,hdata] at eq
      obtain ⟨rfl,rfl⟩ := eq
      refine ⟨.finish hj _,?_,?_,?_⟩
      · exact bufferSize_update hs.buffers i (.after (hs.buffers i) hr hseen hm hd)
      · exact fun f hf => hs.waiting f (List.mem_of_mem_eraseIdx hf)
      · intro f hf
        rcases List.mem_append.mp hf with hf | hf
        · exact hs.finished f hf
        · obtain rfl := List.mem_singleton.mp hf
          exact ⟨stream,topic,data,_,rfl,rfl⟩

/-- A decompressed message leaves the bridge when it is back. -/
lemma advance_result (codecs : Codecs) {system : System n} {flight : Flight} {j : ℕ} (hj : system.finished[j]? = some flight)
    (hplain : Plain flight.frames) (accepts : Bool) :
    ∃ o state, Settles flight.id o ∧ advance codecs system (.result j accepts) =
      .ok ({ system with
        program := { system.program with state := state }
        finished := system.finished.eraseIdx j },[o]) := by
  obtain ⟨id,frames⟩ := flight
  obtain ⟨stream,topic,body,sent,rfl,hmethod⟩ := hplain
  have hseen : Seen [stream,topic,body,msgAddMetaInfo sent] stream topic body _ :=
    .four stream topic body (msgAddMetaInfo sent)
  have hm := (compressionMethod_extract sent).trans hmethod
  obtain ⟨o,ho,hroute⟩ := route_settles { system with finished := system.finished.eraseIdx j } id
    (handle_plain true accepts system.program.state hseen hm)
  refine ⟨o,(handle true accepts system.program.state stream [topic,body,msgAddMetaInfo sent]).state,ho,?_⟩
  simp only [advance,hj]
  rw [hroute]

lemma move_result {system next : System n} {j : ℕ} {accepts : Bool} {out : List Observation}
    (hs : Sound codecs received system) (eq : advance codecs system (.result j accepts) = .ok (next,out)) :
    Move system.ledger next.ledger out ∧ Sound codecs received next := by
  cases hj : system.finished[j]? with
  | none =>
    simp only [advance,hj,Except.ok.injEq,Prod.mk.injEq] at eq
    obtain ⟨rfl,rfl⟩ := eq
    exact ⟨.idle,hs⟩
  | some flight =>
    obtain ⟨o,state,ho,hadvance⟩ :=
      advance_result codecs hj (hs.finished flight (List.mem_of_getElem? hj)) accepts
    rw [hadvance] at eq
    simp only [Except.ok.injEq,Prod.mk.injEq] at eq
    obtain ⟨rfl,rfl⟩ := eq
    exact ⟨.deliver hj ho,hs.buffers,hs.waiting,fun f hf => hs.finished f (List.mem_of_mem_eraseIdx hf)⟩

/-- Every event of the bridge is a move of the ledger. -/
theorem move_advance {system next : System n} {event : Event n} {out : List Observation}
    (hall : AllDecompress codecs received) (hs : Sound codecs received system)
    (hr : Receives received system event) (eq : advance codecs system event = .ok (next,out)) :
    Move system.ledger next.ledger out ∧ Sound codecs received next := by
  cases event with
  | receive first rest accepts => exact move_receive hs hr eq
  | decompress i j rounds => exact move_decompress hall hs eq
  | result j accepts => exact move_result hs eq
  | tick now =>
    simp only [advance,Except.ok.injEq,Prod.mk.injEq] at eq
    obtain ⟨rfl,rfl⟩ := eq
    exact ⟨.idle,hs.buffers,hs.waiting,hs.finished⟩

/-! Accounts of a run. -/

structure Accounted (l : Ledger) (trace : List Observation) : Prop where
  received : ∀ id, trace.countP (·.receives id) = if id < l.nextId then 1 else 0
  handed : ∀ id, trace.countP (·.hands id) ≤ trace.countP (·.receives id)
  settled : ∀ id, trace.countP (·.settles id)+flights id l.waiting+flights id l.finished =
    trace.countP (·.receives id)
  total : l.waiting.length+l.finished.length+trace.countP (·.isSettled) = trace.countP (·.isReceived)

lemma length_eraseIdx_add_one {α : Type*} {l : List α} {j : ℕ} {a : α} (h : l[j]? = some a) :
    (l.eraseIdx j).length+1 = l.length := by
  obtain ⟨hlt,-⟩ := List.getElem?_eq_some_iff.mp h
  rw [List.length_eraseIdx_of_lt hlt]
  omega

/-! What an observation counts for. -/

lemma counts_received (id k : ℕ) (frames : List Bytes) :
    (Observation.received id frames).receives k = (id == k) ∧
      (Observation.received id frames).hands k = false ∧
      (Observation.received id frames).settles k = false ∧
      (Observation.received id frames).isReceived = true ∧
      (Observation.received id frames).isSettled = false := ⟨rfl,rfl,rfl,rfl,rfl⟩

lemma counts_handed (id k : ℕ) :
    (Observation.handed id).receives k = false ∧ (Observation.handed id).hands k = (id == k) ∧
      (Observation.handed id).settles k = false ∧ (Observation.handed id).isReceived = false ∧
      (Observation.handed id).isSettled = false := ⟨rfl,rfl,rfl,rfl,rfl⟩

lemma Settles.counts {id : ℕ} {o : Observation} (h : Settles id o) (k : ℕ) :
    o.receives k = false ∧ o.hands k = false ∧ o.settles k = (id == k) ∧ o.isReceived = false ∧
      o.isSettled = true := by
  cases h <;> exact ⟨rfl,rfl,rfl,rfl,rfl⟩

theorem Accounted.move {l next : Ledger} {trace out : List Observation} (h : Accounted l trace)
    (hmove : Move l next out) : Accounted next (trace ++ out) := by
  cases hmove with
  | idle => simpa using h
  | settle frames ho =>
    refine ⟨fun id => ?_,fun id => ?_,fun id => ?_,?_⟩
    · have hid := h.received id
      simp [counts_received,ho.counts id,List.countP_cons]
      split_ifs at hid ⊢ <;> omega
    · have hid := h.handed id
      simp [counts_received,ho.counts id,List.countP_cons]
      omega
    · have hid := h.settled id
      simp [counts_received,ho.counts id,List.countP_cons]
      omega
    · have htotal := h.total
      simp [counts_received _ 0,ho.counts 0]
      omega
  | hand frames sent =>
    refine ⟨fun id => ?_,fun id => ?_,fun id => ?_,?_⟩
    · have hid := h.received id
      simp [counts_received,counts_handed,List.countP_cons]
      split_ifs at hid ⊢ <;> omega
    · have hid := h.handed id
      simp [counts_received,counts_handed,List.countP_cons]
      omega
    · have hid := h.settled id
      simp [counts_received,counts_handed,List.countP_cons,flights_append]
      omega
    · have htotal := h.total
      simp [counts_received _ 0,counts_handed _ 0]
      omega
  | finish hj sent =>
    refine ⟨by simpa using h.received,by simpa using h.handed,fun id => ?_,?_⟩
    · have hid := h.settled id
      have hmoved := flights_eraseIdx hj id
      simp only [flights_append,List.append_nil]
      omega
    · have htotal := h.total
      have hlength := length_eraseIdx_add_one hj
      simp only [List.length_append,List.length_singleton,List.append_nil]
      omega
  | deliver hj ho =>
    refine ⟨fun id => ?_,fun id => ?_,fun id => ?_,?_⟩
    · simpa [ho.counts id] using h.received id
    · simpa [ho.counts id] using h.handed id
    · have hid := h.settled id
      have hmoved := flights_eraseIdx hj id
      simp [ho.counts id,List.countP_cons]
      omega
    · have htotal := h.total
      have hlength := length_eraseIdx_add_one hj
      simp [ho.counts 0]
      omega

/-! Runs in which every message can be decompressed. -/

section
variable {start : System n} {events : List (Event n)} {system : System n} {trace : List Observation}

theorem sound_run (hall : AllDecompress codecs received) (deviceNumber : UInt32) (now : UInt64)
    (h : Reaches codecs received (initial n deviceNumber now) events system trace) :
    Sound codecs received system ∧ Accounted system.ledger trace := by
  refine Run.invariant (P := fun _ s t => Sound codecs received s ∧ Accounted s.ledger t) ?_ ?_ h
  · refine ⟨.initial codecs received deviceNumber now,fun id => ?_,fun id => ?_,fun id => ?_,?_⟩
    · rfl
    · rfl
    · rfl
    · rfl
  · rintro events system trace event next out ⟨hs,ha⟩ hr eq
    obtain ⟨hmove,hnext⟩ := move_advance hall hs hr eq
    exact ⟨hnext,ha.move hmove⟩

/-- Whichever decompressor takes a message, the call returns. -/
lemma exists_advance_decompress (hall : AllDecompress codecs received) (hs : Sound codecs received system)
    (i : Fin (n+1)) {j : ℕ} (hj : j < system.waiting.length) :
    ∃ rounds next out, advance codecs system (.decompress i j rounds) = .ok (next,out) := by
  obtain ⟨frames,stream,topic,body,m,sent,hr,hseen,hm,hflight,hmethod⟩ :=
    hs.waiting _ (List.getElem_mem hj)
  obtain ⟨rounds,data,grown,hd⟩ := hall frames stream topic body m hr hseen hm _ (hs.buffers i)
  have hadvance := advance_decompress codecs (List.getElem?_eq_getElem hj) hflight i rounds
  rw [hmethod,hd] at hadvance
  exact ⟨rounds,_,_,hadvance⟩

/-- The handler returns for every result. -/
lemma exists_advance_result (hs : Sound codecs received system) {j : ℕ} (hj : j < system.finished.length)
    (accepts : Bool) : ∃ next out, advance codecs system (.result j accepts) = .ok (next,out) := by
  obtain ⟨o,state,_,hadvance⟩ := advance_result codecs (List.getElem?_eq_getElem hj)
    (hs.finished _ (List.getElem_mem hj)) accepts
  exact ⟨_,_,hadvance⟩

/-- A message on its way moves forward. -/
lemma load_lt {event : Event n} {next : System n} {out : List Observation}
    (hs : Sound codecs received system) (hp : event.Pending system)
    (eq : advance codecs system event = .ok (next,out)) : next.load < system.load := by
  cases event with
  | receive first rest accepts => exact hp.elim
  | tick now => exact hp.elim
  | decompress i j rounds =>
    have hj : system.waiting[j]? = some system.waiting[j] := List.getElem?_eq_getElem hp
    obtain ⟨_,stream,topic,body,_,sent,_,_,_,hflight,_⟩ := hs.waiting _ (List.getElem_mem hp)
    rw [advance_decompress codecs hj hflight] at eq
    cases hd : decompressFrame codecs rounds body sent.compressionMethod (system.decompressionBuffers i) with
    | error e =>
      rw [hd] at eq
      cases eq
    | ok result =>
      rw [hd] at eq
      simp only [Except.map,Except.ok.injEq,Prod.mk.injEq] at eq
      obtain ⟨rfl,rfl⟩ := eq
      have hlength := length_eraseIdx_add_one hj
      simp only [System.load,List.length_append,List.length_singleton]
      omega
  | result j accepts =>
    have hj : system.finished[j]? = some system.finished[j] := List.getElem?_eq_getElem hp
    obtain ⟨o,state,_,hadvance⟩ :=
      advance_result codecs hj (hs.finished _ (List.getElem_mem hp)) accepts
    rw [hadvance] at eq
    simp only [Except.ok.injEq,Prod.mk.injEq] at eq
    obtain ⟨rfl,rfl⟩ := eq
    have hlength := length_eraseIdx_add_one hj
    simp only [System.load]
    omega

/-- While messages are on their way, one of them can move. -/
lemma exists_pending (hall : AllDecompress codecs received) (hs : Sound codecs received system)
    (h : system.load ≠ 0) :
    ∃ event next out, event.Pending system ∧ advance codecs system event = .ok (next,out) := by
  by_cases hw : system.waiting.length = 0
  · have hj : 0 < system.finished.length := by
      rw [System.load] at h
      omega
    obtain ⟨next,out,eq⟩ := exists_advance_result hs hj true
    exact ⟨.result 0 true,next,out,hj,eq⟩
  · have hj : 0 < system.waiting.length := Nat.pos_of_ne_zero hw
    obtain ⟨rounds,next,out,eq⟩ := exists_advance_decompress hall hs 0 hj
    exact ⟨.decompress 0 0 rounds,next,out,hj,eq⟩

lemma Event.Pending.receives {event : Event n} (h : event.Pending system) (received : List Bytes → Prop) :
    Receives received system event := by
  cases event with
  | receive first rest accepts => exact h.elim
  | _ => trivial

theorem exists_drained (hall : AllDecompress codecs received) (hs : Sound codecs received system) :
    ∃ moves final out, Reaches codecs (fun _ => False) system moves final out ∧
      final.waiting = [] ∧ final.finished = [] := by
  induction hload : system.load using Nat.strong_induction_on generalizing system with
  | _ load ih =>
    by_cases h : system.load = 0
    · have hw : system.waiting.length = 0 := by rw [System.load] at h; omega
      have hf : system.finished.length = 0 := by rw [System.load] at h; omega
      exact ⟨[],system,[],.start,List.length_eq_zero_iff.mp hw,List.length_eq_zero_iff.mp hf⟩
    · obtain ⟨event,next,out,hp,eq⟩ := exists_pending hall hs h
      have hnext := (move_advance hall hs (hp.receives received) eq).2
      obtain ⟨moves,final,more,hrun,hempty⟩ := ih next.load (hload ▸ load_lt hs hp eq) hnext rfl
      have hfirst : Reaches codecs (fun _ => False) system [event] next out :=
        Run.step .start (hp.receives _) eq
      exact ⟨_,final,_,hfirst.append hrun,hempty⟩

end

/-! A message that cannot be decompressed goes round. -/

lemma Seen.eq_cons {frames : List Bytes} {stream topic body : Bytes} {m : MsgMeta}
    (h : Seen frames stream topic body m) : ∃ first rest, frames = first::rest := by
  cases h with
  | three => exact ⟨_,_,rfl⟩
  | four => exact ⟨_,_,rfl⟩

/-- After any run, a compressed message can be received next and be the last one to wait. -/
lemma reaches_receive {start system : System n} {events : List (Event n)} {trace : List Observation}
    (h : Reaches codecs received start events system trace) {frames : List Bytes}
    {stream topic body : Bytes} {m : MsgMeta} (hr : received frames)
    (hseen : Seen frames stream topic body m) (hm : m.compressionMethod ≠ 0) :
    ∃ events' program, ∃ sent : MsgMeta, sent.compressionMethod = m.compressionMethod ∧
      Reaches codecs received start events' (system.hand program [stream,topic,body,msgAddMetaInfo sent])
        (trace ++ [.received system.nextId frames,.handed system.nextId]) := by
  obtain ⟨first,rest,rfl⟩ := Seen.eq_cons hseen
  obtain ⟨program,sent,hmethod,hadvance⟩ := advance_receive codecs hseen hm system true
  have hallowed : Receives received system (.receive first rest true) := hr
  exact ⟨_,program,sent,hmethod,h.step hallowed hadvance⟩

lemma System.getElem_waiting_hand (system : System n) (program : Program) (frames : List Bytes) :
    (system.hand program frames).waiting[system.waiting.length]? = some ⟨system.nextId,frames⟩ :=
  List.getElem?_concat_length

/-- Every size of a buffer is that of the first decompressor in some run. -/
lemma reaches_bufferSize {buffer : Chunk} (h : BufferSize codecs received buffer) (start : System n)
    (hstart : start.decompressionBuffers 0 = initialCompressionBufferSize) :
    ∃ events system trace, Reaches codecs received start events system trace ∧
      system.decompressionBuffers 0 = buffer := by
  induction h with
  | fresh => exact ⟨[],start,[],.start,hstart⟩
  | @after buffer frames stream topic body m rounds result _ hr hseen hm eq ih =>
    obtain ⟨events,system,trace,hrun,hbuffer⟩ := ih
    obtain ⟨events',program,sent,hmethod,hreceive⟩ := reaches_receive hrun hr hseen hm
    have hlast := system.getElem_waiting_hand program [stream,topic,body,msgAddMetaInfo sent]
    have hadvance := advance_decompress codecs hlast rfl 0 rounds
    rw [hmethod,show (system.hand program _).decompressionBuffers 0 = buffer from hbuffer,eq] at hadvance
    have hallowed : Receives received (system.hand program [stream,topic,body,msgAddMetaInfo sent])
      (.decompress 0 system.waiting.length rounds) := trivial
    refine ⟨_,_,_,hreceive.step hallowed hadvance,?_⟩
    simp only [Function.update_self]

/-- A message that comes back compressed is handed to the decompressors again. -/
lemma advance_result_again (codecs : Codecs) {system : System n} {id j : ℕ} {stream topic body : Bytes}
    {sent : MsgMeta} (hj : system.finished[j]? = some ⟨id,[stream,topic,body,msgAddMetaInfo sent]⟩)
    (hm : sent.compressionMethod ≠ 0) :
    ∃ next, advance codecs system (.result j true) = .ok (next,[.handed id]) := by
  have hseen : Seen [stream,topic,body,msgAddMetaInfo sent] stream topic body _ :=
    .four stream topic body (msgAddMetaInfo sent)
  have hmethod := (compressionMethod_extract sent).trans_ne hm
  obtain ⟨out,_,hemitted⟩ := handle_compressed true true system.program.state hseen hmethod
  have hadvance : advance codecs system (.result j true) =
      .ok (route { system with finished := system.finished.eraseIdx j } id
        (handle true true system.program.state stream [topic,body,msgAddMetaInfo sent])) := by
    simp only [advance,hj]
  rw [route_compressorInput _ _ hemitted] at hadvance
  exact ⟨_,hadvance⟩

theorem allDecompress_of_neverLoops {start : System n}
    (hstart : start.decompressionBuffers 0 = initialCompressionBufferSize)
    (h : NeverLoops codecs received start) : AllDecompress codecs received := by
  intro frames stream topic body m hr hseen hm buffer hb
  obtain ⟨events,system,trace,hrun,hbuffer⟩ := reaches_bufferSize hb start hstart
  obtain ⟨events',program,sent,hmethod,hreceive⟩ := reaches_receive hrun hr hseen hm
  have hlt : system.waiting.length <
      (system.hand program [stream,topic,body,msgAddMetaInfo sent]).waiting.length := by
    simp [System.hand]
  -- the first decompressor takes the message
  obtain ⟨rounds,next,out,eq⟩ := h.decompresses _ _ _ hreceive 0 _ hlt
  have hlast := system.getElem_waiting_hand program [stream,topic,body,msgAddMetaInfo sent]
  have hadvance := advance_decompress codecs hlast rfl 0 rounds
  rw [hmethod,show (system.hand program _).decompressionBuffers 0 = buffer from hbuffer] at hadvance
  cases hd : decompressFrame codecs rounds body m.compressionMethod buffer with
  | error e =>
    rw [hadvance,hd] at eq
    cases eq
  | ok result =>
    obtain ⟨b,grown⟩ := result
    cases b with
    | some data => exact ⟨rounds,data,grown,hd⟩
    | none =>
      -- the message is back as it was, and is handed over once more
      have hallowed : Receives received (system.hand program [stream,topic,body,msgAddMetaInfo sent])
        (.decompress 0 system.waiting.length rounds) := trivial
      have hfinish := hreceive.step hallowed eq
      rw [hadvance,hd] at eq
      simp only [Except.map,Except.ok.injEq,Prod.mk.injEq] at eq
      have hback : next.finished[system.finished.length]? =
          some ⟨system.nextId,[stream,topic,body,msgAddMetaInfo sent]⟩ := by
        rw [← eq.1]
        exact List.getElem?_concat_length
      obtain ⟨last,hagain⟩ := advance_result_again codecs hback (hmethod.trans_ne hm)
      have hallowed' : Receives received next (.result system.finished.length true) := trivial
      have hone := h.handedOnce _ _ _ (hfinish.step hallowed' hagain) system.nextId
      simp [counts_received,counts_handed] at hone
      omega

/-- The bridge never loops a message exactly if every compressed message that it receives can be
decompressed, whatever the decompressors have done before. -/
theorem neverLoops_iff (codecs : Codecs) (received : List Bytes → Prop) (n : ℕ) (deviceNumber : UInt32)
    (now : UInt64) :
    NeverLoops codecs received (initial n deviceNumber now) ↔ AllDecompress codecs received := by
  constructor
  · exact allDecompress_of_neverLoops rfl
  · intro hall
    constructor
    · intro events system trace h id
      have ha := (sound_run hall deviceNumber now h).2
      have hreceived := ha.received id
      have hhanded := ha.handed id
      split_ifs at hreceived <;> omega
    · intro events system trace h
      exact (sound_run hall deviceNumber now h).2.settled
    · intro events system trace h
      exact (sound_run hall deviceNumber now h).2.total.le
    · intro events system trace h i j hj
      exact exists_advance_decompress hall (sound_run hall deviceNumber now h).1 i hj
    · intro events system trace h j hj accepts
      exact exists_advance_result (sound_run hall deviceNumber now h).1 hj accepts
    · intro events system trace h event next out hp eq
      exact load_lt (sound_run hall deviceNumber now h).1 hp eq
    · intro events system trace h
      exact exists_drained hall (sound_run hall deviceNumber now h).1

/-- A message whose body is said to be compressed, and is not. -/
def undecodable : List Bytes :=
  [lit "app-production",lit "logs",[0xff],
    msgAddMetaInfo { metaInfoEmpty with compressionMethod := snappyCompression }]

theorem neverLoops_undecodable :
    ¬NeverLoops sampleCodecs (fun frames => frames = undecodable) (initial 0 1 1) := by
  intro h
  have hall := allDecompress_of_neverLoops rfl h
  obtain ⟨rounds,data,next,hd⟩ := hall undecodable _ _ _ _ rfl (.four _ _ _ _) (by decide +kernel) _ .fresh
  have hnone : decompressFrame sampleCodecs rounds [0xff] snappyCompression initialCompressionBufferSize =
      .ok ⟨none,initialCompressionBufferSize⟩ := rfl
  rw [compressionMethod_extract] at hd
  cases hnone.symm.trans hd

end Logjam.Relay.Bridge
