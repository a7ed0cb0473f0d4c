import Logjam.Basic.JsonText
import Logjam.Graylog.Gelf
import Logjam.Importer.Parser
import Logjam.Util.RoundTrip

/-! The parser of the graylog forwarder. What the functions that it calls return is ignored, so it also sends
something for the messages that cannot be converted. -/
namespace Logjam.Graylog
open Library
open Logjam.Importer (StreamInfo jsonMembers)

/-- The ways in which a call of process_message does not return. -/
inductive ForwarderFault
  | uninitialisedMeta
  | uninitialisedBody
  | decompression (fault : Fault)
  | conversion (fault : GelfFault)
  | compression
  deriving DecidableEq

def ForwarderFault.Uninitialised : ForwarderFault → Prop
  | .uninitialisedMeta => True
  | .uninitialisedBody => True
  | _ => False

/-- What a parser works with: the libraries, the streams that are known and its configuration. -/
structure Parser where
  lib : JsonLib
  codecs : Codecs
  parseJsonData : Bytes → Option Json
  parse_nil : parseJsonData [] = none
  streams : Bytes → Option StreamInfo
  compressGelf : Bool

structure ParserState where
  decompressionBuffer : Chunk
  scratchBuffer : Chunk
  deriving DecidableEq

def parserStateNew : ParserState := ⟨initialDecompressionBufferSize,4096⟩

structure LogjamMessage where
  stream : Bytes
  topic : Bytes
  body : Bytes
  metaFrame : Bytes

def LogjamMessage.frames (msg : LogjamMessage) : List Bytes := [msg.stream,msg.topic,msg.body,msg.metaFrame]

def logjamMessageRead : List Bytes → Option LogjamMessage
  | [stream,topic,body,metaFrame] => some ⟨stream,topic,body,metaFrame⟩
  | _ => none

/-- The struct is on the stack, and only a frame of its size fills it. -/
def extractedMeta (frame : Bytes) : Option MsgMeta :=
  if frame.length = sizeofMsgMeta then some (frameExtractMetaInfo frame metaInfoEmpty).2 else none

/-- The body behind decompress_frame. Two of the functions start with an empty one, the others leave the pointer
alone when they fail. -/
def bodyAfter (method : UInt8) : Option Bytes → Except ForwarderFault Bytes
  | some data => .ok data
  | none => if method = snappyCompression ∨ method = lz4Compression then .ok [] else .error .uninitialisedBody

def jsonData (codecs : Codecs) (rounds : ℕ) (msg : LogjamMessage) (buffer : Chunk) :
    Except ForwarderFault (Bytes × Chunk) :=
  match extractedMeta msg.metaFrame with
  | none => .error .uninitialisedMeta
  | some m =>
    if m.compressionMethod = noCompression then .ok (msg.body,buffer)
    else do
      let result ← (decompressFrame codecs rounds msg.body m.compressionMethod buffer).mapError .decompression
      let body ← bodyAfter m.compressionMethod result.body
      return (body,result.buffer)

/-- The conversion of a body. The parser returns NULL for a text that is not JSON, and for null. -/
def convertBody (p : Parser) (info : StreamInfo) (appEnv : Bytes) (clockTime : ℤ) (state : ParserState) (data : Bytes) :
    Except ForwarderFault (Option JObject × ParserState) :=
  match (p.parseJsonData data).filter notNull with
  | none => .ok (none,state)
  | some json => do
    let request := jsonMembers json
    let gelf ← (requestToGelf p.lib info appEnv clockTime data.length state.scratchBuffer request).mapError .conversion
    return (some gelf,{ state with scratchBuffer := scratchFor p.lib state.scratchBuffer request })

def logjamMessageToGelf (p : Parser) (rounds : ℕ) (clockTime : ℤ) (state : ParserState) (msg : LogjamMessage) :
    Except ForwarderFault (Option JObject × ParserState) :=
  let appEnv := cstr msg.stream
  match p.streams appEnv with
  | none => .ok (none,state)
  | some info => do
    let data ← jsonData p.codecs rounds msg state.decompressionBuffer
    convertBody p info appEnv clockTime { state with decompressionBuffer := data.2 } data.1

/-- NULL is printed like any other value. -/
def gelfMessageToString (lib : JsonLib) : Option JObject → Bytes
  | some gelf => cstr (lib.toJsonString (.obj gelf))
  | none => lit "null"

/-- A message for the writer, and the object that it has been made from. -/
structure Sent where
  gelf : Option JObject
  text : Bytes

def writerText (p : Parser) (gelfData : Bytes) : Except ForwarderFault Bytes :=
  if p.compressGelf then
    match p.codecs.zlib.compress (p.codecs.zlib.compressBound gelfData.length) gelfData with
    | some compressed => .ok compressed
    | none => .error .compression
  else .ok gelfData

/-- Messages that do not have four frames are dropped by logjam_message_read. -/
def processMessage (p : Parser) (rounds : ℕ) (clockTime : ℤ) (state : ParserState) (frames : List Bytes) :
    Except ForwarderFault (List Sent × ParserState) :=
  match logjamMessageRead frames with
  | none => .ok ([],state)
  | some msg => do
    let result ← logjamMessageToGelf p rounds clockTime state msg
    let text ← writerText p (gelfMessageToString p.lib result.1)
    return ([⟨result.1,text⟩],result.2)

/-- The states between messages. -/
inductive Reached : ParserState → Prop
  | new : Reached parserStateNew
  | next {p : Parser} {rounds : ℕ} {clockTime : ℤ} {state next : ParserState} {frames : List Bytes} {sent : List Sent}
      (before : Reached state) (eq : processMessage p rounds clockTime state frames = .ok (sent,next)) : Reached next

/-! What the parser is for. -/

/-- The data in a body, without any buffer. An lz4 block has a size of type int. -/
def decoded (codecs : Codecs) (method : UInt8) (source : Bytes) : Option Bytes :=
  if method = noCompression then some source
  else if method = zlibCompression then codecs.zlib.decode source
  else if method = snappyCompression then codecs.snappy.decode source
  else if method = lz4Compression ∧ 4 ≤ source.length ∧ source.length-4 < 2^31 then codecs.lz4.decode (source.drop 4)
  else none

def LogjamMessage.method (msg : LogjamMessage) : UInt8 := (decodedMeta msg.metaFrame).compressionMethod

/-- The JSON value in a message of a known stream with valid meta information. -/
structure Convertible (p : Parser) (msg : LogjamMessage) (info : StreamInfo) (data : Bytes) (json : Json) : Prop where
  stream : p.streams (cstr msg.stream) = some info
  valid : ValidMeta msg.metaFrame
  body : decoded p.codecs msg.method msg.body = some data
  parsed : p.parseJsonData data = some json

/-- The message that the writer gets for a convertible message. -/
def SendsGelf (p : Parser) (clockTime : ℤ) (state : ParserState) (msg : LogjamMessage) (info : StreamInfo) (data : Bytes)
    (json : Json) : Prop :=
  ∃ rounds gelf text next,
    requestToGelf p.lib info (cstr msg.stream) clockTime data.length state.scratchBuffer (jsonMembers json) = .ok gelf ∧
    processMessage p rounds clockTime state msg.frames = .ok ([⟨some gelf,text⟩],next)

/-- One GELF object is sent for a convertible message, and nothing for the others. -/
def ForwardsRight (p : Parser) (clockTime : ℤ) (state : ParserState) (msg : LogjamMessage) : Prop :=
  (∀ info data json,Convertible p msg info data json → SendsGelf p clockTime state msg info data json) ∧
    ((¬∃ info data json,Convertible p msg info data json) → ∃ rounds next,
      processMessage p rounds clockTime state msg.frames = .ok ([],next))

/-! Inversion. -/

variable {p : Parser} {codecs : Codecs} {rounds : ℕ} {clockTime : ℤ} {state next : ParserState} {msg : LogjamMessage}
  {info : StreamInfo} {data : Bytes} {buffer grown : Chunk} {gelf : Option JObject}

lemma processMessage_eq_ok_iff {sent : List Sent} :
    processMessage p rounds clockTime state msg.frames = .ok (sent,next) ↔
      ∃ gelf text,logjamMessageToGelf p rounds clockTime state msg = .ok (gelf,next) ∧
        writerText p (gelfMessageToString p.lib gelf) = .ok text ∧ sent = [⟨gelf,text⟩] := by
  constructor
  · intro h
    obtain ⟨⟨gelf,after⟩,hgelf,h⟩ := bind_eq_ok_iff.mp h
    obtain ⟨text,htext,h⟩ := bind_eq_ok_iff.mp h
    obtain ⟨rfl,rfl⟩ := Prod.mk.inj (Except.ok.inj h)
    exact ⟨gelf,text,hgelf,htext,rfl⟩
  · rintro ⟨gelf,text,hgelf,htext,rfl⟩
    exact bind_eq_ok_iff.mpr ⟨_,hgelf,bind_eq_ok_iff.mpr ⟨text,htext,rfl⟩⟩

lemma logjamMessageToGelf_of_known (h : p.streams (cstr msg.stream) = some info) :
    logjamMessageToGelf p rounds clockTime state msg = (do
      let data ← jsonData p.codecs rounds msg state.decompressionBuffer
      convertBody p info (cstr msg.stream) clockTime { state with decompressionBuffer := data.2 } data.1) := by
  simp only [logjamMessageToGelf,h]

lemma notNull_iff {json : Json} : notNull json = true ↔ json ≠ .null := by
  cases json with
  | null => simp [notNull]
  | _ => exact iff_of_true rfl nofun

/-- An object comes from a body that is JSON and not null. -/
lemma convertBody_eq_some_iff {appEnv : Bytes} {gelf : JObject} :
    convertBody p info appEnv clockTime state data = .ok (some gelf,next) ↔
      ∃ json,p.parseJsonData data = some json ∧ json ≠ .null ∧
        requestToGelf p.lib info appEnv clockTime data.length state.scratchBuffer (jsonMembers json) = .ok gelf ∧
        next = { state with scratchBuffer := scratchFor p.lib state.scratchBuffer (jsonMembers json) } := by
  unfold convertBody
  constructor
  · intro h
    split at h
    · cases h
    · next json hjson =>
      obtain ⟨hparse,hnull⟩ := Option.filter_eq_some_iff.mp hjson
      obtain ⟨made,hmade,h⟩ := bind_eq_ok_iff.mp h
      obtain ⟨hgelf,rfl⟩ := Prod.mk.inj (Except.ok.inj h)
      obtain rfl := Option.some.inj hgelf
      exact ⟨json,hparse,notNull_iff.mp hnull,mapError_eq_ok_iff.mp hmade,rfl⟩
  · rintro ⟨json,hparse,hnull,hgelf,rfl⟩
    rw [hparse,Option.filter_some_pos (notNull_iff.mpr hnull)]
    exact bind_eq_ok_iff.mpr ⟨gelf,mapError_eq_ok_iff.mpr hgelf,rfl⟩

lemma convertBody_buffers {appEnv : Bytes} (hscratch : state.scratchBuffer ≤ maxBufferSize)
    (h : convertBody p info appEnv clockTime state data = .ok (gelf,next)) :
    next.decompressionBuffer = state.decompressionBuffer ∧ next.scratchBuffer ≤ maxBufferSize := by
  unfold convertBody at h
  split at h
  · obtain ⟨-,rfl⟩ := Prod.mk.inj (Except.ok.inj h)
    exact ⟨rfl,hscratch⟩
  · obtain ⟨made,-,h⟩ := bind_eq_ok_iff.mp h
    obtain ⟨-,rfl⟩ := Prod.mk.inj (Except.ok.inj h)
    exact ⟨rfl,zchunkEnsureSize_le hscratch _⟩

lemma extractedMeta_eq_some (h : msg.metaFrame.length = sizeofMsgMeta) :
    extractedMeta msg.metaFrame = some (decodedMeta msg.metaFrame) := by
  rw [extractedMeta,if_pos h,frameExtractMetaInfo,if_pos h]
  rfl

/-- The body is the frame itself, or what decompress_frame has left. -/
lemma jsonData_eq_ok_iff : jsonData codecs rounds msg buffer = .ok (data,grown) ↔
    msg.metaFrame.length = sizeofMsgMeta ∧
      (msg.method = noCompression ∧ msg.body = data ∧ buffer = grown ∨
        msg.method ≠ noCompression ∧ ∃ body,
          decompressFrame codecs rounds msg.body msg.method buffer = .ok ⟨body,grown⟩ ∧
          bodyAfter msg.method body = .ok data) := by
  unfold jsonData
  by_cases hsize : msg.metaFrame.length = sizeofMsgMeta
  · rw [extractedMeta_eq_some hsize,and_iff_right hsize]
    change (if msg.method = noCompression then _ else _) = _ ↔ _
    by_cases hmethod : msg.method = noCompression
    · rw [if_pos hmethod]
      simp [hmethod]
    · rw [if_neg hmethod]
      constructor
      · intro h
        obtain ⟨⟨body,after⟩,hresult,h⟩ := bind_eq_ok_iff.mp h
        obtain ⟨data',hbody,h⟩ := bind_eq_ok_iff.mp h
        obtain ⟨rfl,rfl⟩ := Prod.mk.inj (Except.ok.inj h)
        exact .inr ⟨hmethod,body,mapError_eq_ok_iff.mp hresult,hbody⟩
      · rintro (⟨hplain,-⟩ | ⟨-,body,hresult,hbody⟩)
        · exact absurd hplain hmethod
        · exact bind_eq_ok_iff.mpr ⟨_,mapError_eq_ok_iff.mpr hresult,bind_eq_ok_iff.mpr ⟨data,hbody,rfl⟩⟩
  · rw [extractedMeta,if_neg hsize]
    exact iff_of_false nofun fun h => hsize h.1

/-! The states between messages. -/

lemma jsonData_buffer_le (hb : buffer ≤ maxBufferSize) (h : jsonData codecs rounds msg buffer = .ok (data,grown)) :
    grown ≤ maxBufferSize := by
  obtain ⟨-,⟨-,-,rfl⟩ | ⟨-,body,hresult,-⟩⟩ := jsonData_eq_ok_iff.mp h
  · exact hb
  · exact decompressFrame_buffer_le hb hresult

/-- Both buffers are within the limit. -/
def ParserState.Bounded (state : ParserState) : Prop :=
  state.decompressionBuffer ≤ maxBufferSize ∧ state.scratchBuffer ≤ maxBufferSize

lemma logjamMessageToGelf_bounded (hb : state.Bounded)
    (h : logjamMessageToGelf p rounds clockTime state msg = .ok (gelf,next)) : next.Bounded := by
  cases hstream : p.streams (cstr msg.stream) with
  | none =>
    simp only [logjamMessageToGelf,hstream] at h
    obtain ⟨-,rfl⟩ := Prod.mk.inj (Except.ok.inj h)
    exact hb
  | some info =>
    rw [logjamMessageToGelf_of_known hstream] at h
    obtain ⟨⟨data,grown⟩,hdata,h⟩ := bind_eq_ok_iff.mp h
    have hstart : (⟨grown,state.scratchBuffer⟩ : ParserState).scratchBuffer ≤ maxBufferSize := hb.2
    obtain ⟨hsame,hscratch⟩ := convertBody_buffers hstart h
    exact ⟨hsame ▸ jsonData_buffer_le hb.1 hdata,hscratch⟩

lemma Reached.bounded (h : Reached state) : state.Bounded := by
  induction h with
  | new => exact ⟨by decide,by decide⟩
  | next before eq ih =>
    unfold processMessage at eq
    split at eq
    · obtain ⟨-,rfl⟩ := Prod.mk.inj (Except.ok.inj eq)
      exact ih
    · obtain ⟨⟨gelf,after⟩,hgelf,eq⟩ := bind_eq_ok_iff.mp eq
      obtain ⟨text,-,eq⟩ := bind_eq_ok_iff.mp eq
      obtain ⟨-,rfl⟩ := Prod.mk.inj (Except.ok.inj eq)
      exact logjamMessageToGelf_bounded ih hgelf

/-! Bodies. -/

/-- The data that a library finds in the bytes it is given. The number of bytes of an lz4 block is passed as an int. -/
def found (codecs : Codecs) (method : UInt8) (source : Bytes) : Option Bytes :=
  if method = zlibCompression then codecs.zlib.decode source
  else if method = snappyCompression then codecs.snappy.decode source
  else if method = lz4Compression then codecs.lz4.decode ((source.drop 4).take (toInt32 (source.length-4)).toNat)
  else none

/-- No buffer has an influence on the data. -/
lemma found_of_decompressFrame {source : Bytes} {method : UInt8} (hb : buffer ≤ maxBufferSize)
    (h : decompressFrame codecs rounds source method buffer = .ok ⟨some data,grown⟩) :
    found codecs method source = some data := by
  unfold decompressFrame at h
  unfold found
  split_ifs at h ⊢
  · obtain ⟨⟨data',hdecode,hbody,-⟩,-⟩ := decompressFrameGzip_ok hb h
    obtain rfl := Option.some.inj hbody
    exact hdecode
  · unfold decompressFrameSnappy at h
    split at h
    · cases h
    · dsimp only at h
      split_ifs at h
      obtain ⟨hbody,-⟩ := Decompressed.mk.inj (Except.ok.inj h)
      exact (within_eq_some.mp hbody).1
  · unfold decompressFrameLz4 at h
    dsimp only at h
    split_ifs at h
    obtain ⟨hbody,-⟩ := Decompressed.mk.inj (Except.ok.inj h)
    unfold Lz4.decompressSafe at hbody
    split_ifs at hbody
    exact (within_eq_some.mp hbody).1
  · cases h

lemma found_of_decoded {source : Bytes} {method : UInt8} (hmethod : method ≠ noCompression)
    (h : decoded codecs method source = some data) : found codecs method source = some data := by
  unfold decoded at h
  rw [if_neg hmethod] at h
  unfold found
  split_ifs at h ⊢ with hzlib hsnappy hlz4 hblock
  · exact h
  · exact h
  · rwa [toInt32_of_lt hblock.2.2,Int.toNat_natCast,List.take_of_length_le (by rw [List.length_drop])]
  · next hblock => exact absurd hblock.1 hlz4

/-- A text that is JSON is a body, not the empty text of a failed call. -/
lemma jsonData_eq_ok_of_parsed (h : jsonData p.codecs rounds msg buffer = .ok (data,grown)) {json : Json}
    (hparse : p.parseJsonData data = some json) :
    msg.method = noCompression ∧ msg.body = data ∨
      msg.method ≠ noCompression ∧
        decompressFrame p.codecs rounds msg.body msg.method buffer = .ok ⟨some data,grown⟩ := by
  obtain ⟨-,⟨hmethod,hbody,-⟩ | ⟨hmethod,body,hresult,hbody⟩⟩ := jsonData_eq_ok_iff.mp h
  · exact .inl ⟨hmethod,hbody⟩
  · refine .inr ⟨hmethod,?_⟩
    cases body with
    | none =>
      unfold bodyAfter at hbody
      dsimp only at hbody
      split_ifs at hbody
      rw [← Except.ok.inj hbody,p.parse_nil] at hparse
      cases hparse
    | some found => rwa [Except.ok.inj hbody] at hresult

lemma jsonData_unique {rounds' : ℕ} {buffer' grown' : Chunk} {data' : Bytes} {json json' : Json}
    (hb : buffer ≤ maxBufferSize) (hb' : buffer' ≤ maxBufferSize)
    (h : jsonData p.codecs rounds msg buffer = .ok (data,grown)) (hparse : p.parseJsonData data = some json)
    (h' : jsonData p.codecs rounds' msg buffer' = .ok (data',grown')) (hparse' : p.parseJsonData data' = some json') :
    data = data' := by
  rcases jsonData_eq_ok_of_parsed h hparse with ⟨hmethod,rfl⟩ | ⟨hmethod,hresult⟩ <;>
    rcases jsonData_eq_ok_of_parsed h' hparse' with ⟨hmethod',rfl⟩ | ⟨hmethod',hresult'⟩
  · rfl
  · exact absurd hmethod hmethod'
  · exact absurd hmethod' hmethod
  · exact Option.some.inj ((found_of_decompressFrame hb hresult).symm.trans (found_of_decompressFrame hb' hresult'))

lemma decoded_of_jsonData {data' : Bytes} {json : Json} (hb : buffer ≤ maxBufferSize)
    (h : jsonData p.codecs rounds msg buffer = .ok (data,grown)) (hparse : p.parseJsonData data = some json)
    (hdecoded : decoded p.codecs msg.method msg.body = some data') : data = data' := by
  rcases jsonData_eq_ok_of_parsed h hparse with ⟨hmethod,rfl⟩ | ⟨hmethod,hresult⟩
  · rw [decoded,if_pos hmethod] at hdecoded
    exact Option.some.inj hdecoded
  · exact Option.some.inj ((found_of_decompressFrame hb hresult).symm.trans (found_of_decoded hmethod hdecoded))

/-- What has to go well for an object to be sent. -/
lemma processMessage_gelf_iff {gelf : JObject} {text : Bytes} :
    processMessage p rounds clockTime state msg.frames = .ok ([⟨some gelf,text⟩],next) ↔
      ∃ info data grown json,p.streams (cstr msg.stream) = some info ∧
        jsonData p.codecs rounds msg state.decompressionBuffer = .ok (data,grown) ∧
        p.parseJsonData data = some json ∧ json ≠ .null ∧
        requestToGelf p.lib info (cstr msg.stream) clockTime data.length state.scratchBuffer (jsonMembers json) = .ok gelf ∧
        writerText p (gelfMessageToString p.lib (some gelf)) = .ok text ∧
        next = ⟨grown,scratchFor p.lib state.scratchBuffer (jsonMembers json)⟩ := by
  rw [processMessage_eq_ok_iff]
  constructor
  · rintro ⟨made,text',hmade,htext,hsent⟩
    obtain ⟨rfl,rfl⟩ := Sent.mk.inj (List.cons.inj hsent).1
    cases hstream : p.streams (cstr msg.stream) with
    | none =>
      simp only [logjamMessageToGelf,hstream] at hmade
      cases hmade
    | some info =>
      rw [logjamMessageToGelf_of_known hstream] at hmade
      obtain ⟨⟨data,grown⟩,hdata,hmade⟩ := bind_eq_ok_iff.mp hmade
      obtain ⟨json,hparse,hnull,hgelf,rfl⟩ := convertBody_eq_some_iff.mp hmade
      exact ⟨info,data,grown,json,rfl,hdata,hparse,hnull,hgelf,htext,rfl⟩
  · rintro ⟨info,data,grown,json,hstream,hdata,hparse,hnull,hgelf,htext,rfl⟩
    refine ⟨some gelf,text,?_,htext,rfl⟩
    rw [logjamMessageToGelf_of_known hstream]
    exact bind_eq_ok_iff.mpr ⟨_,hdata,convertBody_eq_some_iff.mpr ⟨json,hparse,hnull,hgelf,rfl⟩⟩

/-! Memory that has not been written. -/

def knownMethods : List UInt8 := [noCompression,zlibCompression,snappyCompression,lz4Compression]

lemma avoids_bodyAfter_iff {method : UInt8} {body : Option Bytes} :
    Avoids ForwarderFault.Uninitialised (bodyAfter method body) ↔
      body.isSome ∨ method = snappyCompression ∨ method = lz4Compression := by
  cases body with
  | some data => exact iff_of_true (avoids_ok data) (.inl rfl)
  | none =>
    unfold bodyAfter
    dsimp only
    split_ifs with hmethod
    · exact iff_of_true (avoids_ok _) (.inr hmethod)
    · rw [avoids_error_iff]
      exact iff_of_false (not_not.mpr trivial) (not_or.mpr ⟨nofun,hmethod⟩)

/-- Only for an unknown method is the pointer left alone. -/
lemma avoids_decompressed_iff {source : Bytes} {method : UInt8} (hb : buffer ≤ maxBufferSize)
    (hmethod : method ≠ noCompression) (rounds : ℕ) :
    (∀ result,decompressFrame codecs rounds source method buffer = .ok result →
      Avoids ForwarderFault.Uninitialised (bodyAfter method result.body)) ↔ method ∈ knownMethods := by
  simp only [avoids_bodyAfter_iff,knownMethods,List.mem_cons,hmethod,false_or,List.not_mem_nil,or_false]
  by_cases hzlib : method = zlibCompression
  · refine iff_of_true (fun result hresult => .inl ?_) (.inl hzlib)
    rw [decompressFrame,if_pos hzlib] at hresult
    obtain ⟨⟨data,-,hbody,-⟩,-⟩ := decompressFrameGzip_ok hb hresult
    rw [hbody]
    rfl
  by_cases hother : method = snappyCompression ∨ method = lz4Compression
  · exact iff_of_true (fun result _ => .inr hother) (.inr hother)
  · refine iff_of_false (fun h => ?_) (not_or.mpr ⟨hzlib,hother⟩)
    obtain ⟨hsnappy,hlz4⟩ := not_or.mp hother
    have hnone : decompressFrame codecs rounds source method buffer = .ok ⟨none,buffer⟩ := by
      rw [decompressFrame,if_neg hzlib,if_neg hsnappy,if_neg hlz4]
    rcases h _ hnone with hsome | hknown
    · cases hsome
    · exact hother hknown

lemma avoids_jsonData_iff (hb : buffer ≤ maxBufferSize) (rounds : ℕ) :
    Avoids ForwarderFault.Uninitialised (jsonData codecs rounds msg buffer) ↔
      msg.metaFrame.length = sizeofMsgMeta ∧ msg.method ∈ knownMethods := by
  unfold jsonData
  by_cases hsize : msg.metaFrame.length = sizeofMsgMeta
  · rw [extractedMeta_eq_some hsize,and_iff_right hsize]
    change Avoids _ (if msg.method = noCompression then _ else _) ↔ _
    by_cases hmethod : msg.method = noCompression
    · rw [if_pos hmethod,hmethod]
      exact iff_of_true (avoids_ok _) (by decide)
    · rw [if_neg hmethod,avoids_bind_iff,and_iff_right (avoids_mapError (fun _ => id) _)]
      simp only [mapError_eq_ok_iff,avoids_bind_pure_iff]
      exact avoids_decompressed_iff hb hmethod rounds
  · rw [extractedMeta,if_neg hsize]
    exact iff_of_false (fun h => h .uninitialisedMeta rfl trivial) fun h => hsize h.1

lemma avoids_convertBody (p : Parser) (info : StreamInfo) (appEnv : Bytes) (clockTime : ℤ) (state : ParserState)
    (data : Bytes) : Avoids ForwarderFault.Uninitialised (convertBody p info appEnv clockTime state data) := by
  unfold convertBody
  split
  · exact avoids_ok _
  · exact avoids_bind_pure_iff.mpr (avoids_mapError (fun _ => id) _)

lemma avoids_writerText (p : Parser) (gelfData : Bytes) :
    Avoids ForwarderFault.Uninitialised (writerText p gelfData) := by
  unfold writerText
  split_ifs
  · split
    · exact avoids_ok _
    · exact avoids_error_iff.mpr id
  · exact avoids_ok _

lemma avoids_logjamMessageToGelf_iff (hb : state.decompressionBuffer ≤ maxBufferSize) (rounds : ℕ) :
    Avoids ForwarderFault.Uninitialised (logjamMessageToGelf p rounds clockTime state msg) ↔
      ((p.streams (cstr msg.stream)).isSome → msg.metaFrame.length = sizeofMsgMeta ∧ msg.method ∈ knownMethods) := by
  cases hstream : p.streams (cstr msg.stream) with
  | none =>
    simp only [logjamMessageToGelf,hstream]
    exact iff_of_true (avoids_ok _) nofun
  | some info =>
    rw [logjamMessageToGelf_of_known hstream,avoids_bind_iff,avoids_jsonData_iff hb,imp_iff_right Option.isSome_some]
    exact and_iff_left fun _ _ => avoids_convertBody _ _ _ _ _ _

lemma avoids_processMessage_iff (hb : state.decompressionBuffer ≤ maxBufferSize) (rounds : ℕ) :
    Avoids ForwarderFault.Uninitialised
        (processMessage p rounds clockTime state msg.frames) ↔
      ((p.streams (cstr msg.stream)).isSome → msg.metaFrame.length = sizeofMsgMeta ∧ msg.method ∈ knownMethods) := by
  change Avoids _ (logjamMessageToGelf p rounds clockTime state msg >>= _) ↔ _
  rw [avoids_bind_iff,avoids_logjamMessageToGelf_iff hb]
  exact and_iff_left fun _ _ => avoids_bind_pure_iff.mpr (avoids_writerText _ _)

/-! The parser against what it is for. -/

/-- The JSON value of a message and all that it is found with are determined by the message. -/
lemma Convertible.unique {info' : StreamInfo} {data' : Bytes} {json json' : Json} (h : Convertible p msg info data json)
    (h' : Convertible p msg info' data' json') : info = info' ∧ data = data' ∧ json = json' := by
  obtain rfl := Option.some.inj (h.stream.symm.trans h'.stream)
  obtain rfl := Option.some.inj (h.body.symm.trans h'.body)
  exact ⟨rfl,rfl,Option.some.inj (h.parsed.symm.trans h'.parsed)⟩

/-- The buffer has room for the data. It is enlarged for what snappy says about the length, and for what the sender of
an lz4 block says. -/
def Roomy (codecs : Codecs) (method : UInt8) (source : Bytes) (buffer : Chunk) (data : Bytes) : Prop :=
  if method = zlibCompression then data.length ≤ (maxBufferSize : ℕ)
  else if method = snappyCompression then ∃ length,codecs.snappy.uncompressedLength source = some length ∧
    length ≤ (maxBufferSize : ℕ) ∧ data.length ≤ (zchunkEnsureSize buffer length : ℕ)
  else if method = lz4Compression then lz4AnnouncedLength source ≤ (maxBufferSize : ℕ) ∧
    data.length ≤ (zchunkEnsureSize buffer (lz4AnnouncedLength source) : ℕ)
  else True

lemma roomy_of_noCompression {method : UInt8} {source : Bytes} (h : method = noCompression) :
    Roomy codecs method source buffer data := by
  rw [Roomy,h,if_neg (by decide),if_neg (by decide),if_neg (by decide)]
  trivial

lemma decompressFrameSnappy_some_iff {lib : Snappy} {source : Bytes} (hb : buffer ≤ maxBufferSize)
    (hdecode : lib.decode source = some data) :
    (∃ grown,decompressFrameSnappy lib source buffer = .ok ⟨some data,grown⟩) ↔
      ∃ length,lib.uncompressedLength source = some length ∧ length ≤ (maxBufferSize : ℕ) ∧
        data.length ≤ (zchunkEnsureSize buffer length : ℕ) := by
  unfold decompressFrameSnappy
  cases lib.uncompressedLength source with
  | none => exact iff_of_false nofun nofun
  | some length =>
    simp only [Option.some.injEq,exists_eq_left']
    by_cases hlong : (zchunkEnsureSize buffer length : ℕ) < length
    · rw [if_pos hlong]
      rw [zchunkEnsureSize_lt_iff hb] at hlong
      exact iff_of_false nofun fun h => hlong.not_ge h.1
    · rw [if_neg hlong]
      rw [zchunkEnsureSize_lt_iff hb,not_lt] at hlong
      simp [hlong,Snappy.uncompress,hdecode]

lemma decompressFrameLz4_some_iff {lib : Lz4} {source : Bytes} (hb : buffer ≤ maxBufferSize) (hsize : 4 ≤ source.length)
    (hblock : source.length-4 < 2^31) (hdecode : lib.decode (source.drop 4) = some data) :
    (∃ grown,decompressFrameLz4 lib source buffer = .ok ⟨some data,grown⟩) ↔
      lz4AnnouncedLength source ≤ (maxBufferSize : ℕ) ∧
        data.length ≤ (zchunkEnsureSize buffer (lz4AnnouncedLength source) : ℕ) := by
  have hmax : (zchunkEnsureSize buffer (lz4AnnouncedLength source) : ℕ) < 2^31 :=
    lt_of_le_of_lt (zchunkEnsureSize_le hb _) (by decide)
  unfold decompressFrameLz4
  rw [if_neg hsize.not_gt]
  dsimp only
  by_cases hlong : (zchunkEnsureSize buffer (lz4AnnouncedLength source) : ℕ) < lz4AnnouncedLength source
  · rw [if_pos hlong]
    rw [zchunkEnsureSize_lt_iff hb] at hlong
    exact iff_of_false nofun fun h => hlong.not_ge h.1
  · rw [if_neg hlong,toInt32_of_lt hblock,toInt32_of_lt hmax]
    rw [zchunkEnsureSize_lt_iff hb,not_lt] at hlong
    have hwhole : (source.drop 4).take (source.length-4) = source.drop 4 :=
      List.take_of_length_le (by rw [List.length_drop])
    simp [hlong,Lz4.decompressSafe,hwhole,hdecode]

/-- The data that a library finds is returned if and only if there is room for it. -/
lemma decompressFrame_some_iff {method : UInt8} {source : Bytes} (hb : buffer ≤ maxBufferSize)
    (hmethod : method ≠ noCompression) (hdecoded : decoded codecs method source = some data) :
    (∃ rounds grown,decompressFrame codecs rounds source method buffer = .ok ⟨some data,grown⟩) ↔
      Roomy codecs method source buffer data := by
  rw [decoded,if_neg hmethod] at hdecoded
  unfold decompressFrame Roomy
  split_ifs at hdecoded ⊢ with hzlib hsnappy hlz4 hblock
  · constructor
    · rintro ⟨rounds,grown,hresult⟩
      obtain ⟨⟨data',-,hsome,hle⟩,hgrown⟩ := decompressFrameGzip_ok hb hresult
      obtain rfl := Option.some.inj hsome
      exact hle.trans hgrown
    · intro hle
      obtain ⟨rounds,⟨body,grown⟩,hresult⟩ := exists_decompressFrameGzip hb hdecoded hle
      obtain ⟨⟨data',hdecode,hsome,-⟩,-⟩ := decompressFrameGzip_ok hb hresult
      obtain rfl := Option.some.inj (hdecoded.symm.trans hdecode)
      obtain rfl : body = some data := hsome
      exact ⟨rounds,grown,hresult⟩
  · rw [exists_const]
    exact decompressFrameSnappy_some_iff hb hdecoded
  · rw [exists_const]
    exact decompressFrameLz4_some_iff hb hblock.2.1 hblock.2.2 hdecoded
  · next hblock => exact absurd hblock.1 hlz4

lemma jsonData_ok_iff (hb : buffer ≤ maxBufferSize) {json : Json} (h : Convertible p msg info data json) :
    (∃ rounds grown,jsonData p.codecs rounds msg buffer = .ok (data,grown)) ↔
      Roomy p.codecs msg.method msg.body buffer data := by
  have hbody := h.body
  by_cases hmethod : msg.method = noCompression
  · rw [decoded,if_pos hmethod] at hbody
    exact iff_of_true ⟨0,buffer,jsonData_eq_ok_iff.mpr ⟨h.valid.1,.inl ⟨hmethod,Option.some.inj hbody,rfl⟩⟩⟩
      (roomy_of_noCompression hmethod)
  · rw [← decompressFrame_some_iff hb hmethod hbody]
    constructor
    · rintro ⟨rounds,grown,hdata⟩
      rcases jsonData_eq_ok_of_parsed hdata h.parsed with ⟨hplain,-⟩ | ⟨-,hresult⟩
      · exact absurd hplain hmethod
      · exact ⟨rounds,grown,hresult⟩
    · rintro ⟨rounds,grown,hresult⟩
      exact ⟨rounds,grown,jsonData_eq_ok_iff.mpr ⟨h.valid.1,.inr ⟨hmethod,some data,hresult,rfl⟩⟩⟩

/-- What has to be true of a message for its object to be sent. -/
structure Sendable (p : Parser) (state : ParserState) (msg : LogjamMessage) (info : StreamInfo) (data : Bytes)
    (json : Json) : Prop where
  notNull : json ≠ .null
  room : Roomy p.codecs msg.method msg.body state.decompressionBuffer data
  safe : GelfSafe p.lib info (jsonMembers json)

section Law
variable (hbound : ∀ text,(p.codecs.zlib.encode text).length ≤ p.codecs.zlib.compressBound text.length)
include hbound

lemma writerText_ok (gelfData : Bytes) : ∃ text,writerText p gelfData = .ok text := by
  unfold writerText
  split_ifs
  · rw [Zlib.compress,within_eq_some.mpr ⟨rfl,hbound gelfData⟩]
    exact ⟨_,rfl⟩
  · exact ⟨_,rfl⟩

/-- The conditions under which the object for a convertible message is sent. -/
lemma sendsGelf_iff (hb : state.Bounded) {json : Json} (h : Convertible p msg info data json) :
    SendsGelf p clockTime state msg info data json ↔ Sendable p state msg info data json := by
  constructor
  · rintro ⟨rounds,gelf,text,next,hgelf,hsent⟩
    obtain ⟨info',data',grown,json',-,hdata,hparse,hnull,-,htext,-⟩ := processMessage_gelf_iff.mp hsent
    obtain rfl := decoded_of_jsonData hb.1 hdata hparse h.body
    obtain rfl := Option.some.inj (hparse.symm.trans h.parsed)
    exact ⟨hnull,(jsonData_ok_iff hb.1 h).mp ⟨rounds,grown,hdata⟩,(requestToGelf_ok_iff _ _ _ _ _ hb.2 _).mp ⟨gelf,hgelf⟩⟩
  · intro hsendable
    obtain ⟨rounds,grown,hdata⟩ := (jsonData_ok_iff hb.1 h).mpr hsendable.room
    obtain ⟨gelf,hgelf⟩ := (requestToGelf_ok_iff p.lib info (cstr msg.stream) clockTime data.length hb.2 (jsonMembers json)).mpr
      hsendable.safe
    obtain ⟨text,htext⟩ := writerText_ok hbound (gelfMessageToString p.lib (some gelf))
    exact ⟨rounds,gelf,text,_,hgelf,processMessage_gelf_iff.mpr
      ⟨info,data,grown,json,h.stream,hdata,h.parsed,hsendable.notNull,hgelf,htext,rfl⟩⟩

end Law

/-- The text of the time stamp of the sample. -/
def sampleNumber : NumberText := ⟨fun _ => lit "1.0",fun _ => by decide +kernel⟩

/-- A parser that knows one stream and one JSON text. -/
def sampleParser : Parser where
  lib := { JsonLib.blank with toJsonString := jsonText sampleNumber }
  codecs := sampleCodecs
  parseJsonData data := if data = lit "\x7b\x7d" then some (.obj []) else none
  parse_nil := rfl
  streams appEnv := if appEnv = lit "app-env" then some Exporter.bareInfo else none
  compressGelf := false

def sampleMessage (stream metaFrame : Bytes) : LogjamMessage := ⟨stream,lit "logs.app.env",lit "\x7b\x7d",metaFrame⟩

def goodMessage : LogjamMessage := sampleMessage (lit "app-env") (msgAddMetaInfo metaInfoEmpty)

lemma sampleZlib_bound (text : Bytes) : (sampleZlib.encode text).length ≤ sampleZlib.compressBound text.length := by
  dsimp only [sampleZlib]
  split_ifs with h
  · rw [h]
    decide
  · simp only [List.length_cons]
    omega

def sampleRun (stream metaFrame : Bytes) : Except ForwarderFault (List Sent × ParserState) :=
  processMessage sampleParser 0 1000 parserStateNew (sampleMessage stream metaFrame).frames

end Logjam.Graylog
