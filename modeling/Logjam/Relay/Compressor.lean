import Logjam.Util.Compression

/-! The compressor threads of the device, which are decompressors in the bridge. They write the
compression method into the meta frame where it is, as one byte of the struct. -/
namespace Logjam.Relay
open Logjam.Library.Endian

structure CompressorState where
  compressionMethod : UInt8
  compressionBuffer : Chunk
  decompress : Bool

/-- The offset of the compression method in the struct. -/
def methodOffset : ℕ := 2

def handleCompressorRequest (codecs : Codecs) (rounds : ℕ) (state : CompressorState) (msg : List Bytes) :
    Except Fault (CompressorState × List Bytes) :=
  match msg with
  | stream::topic::body::metaFrame::rest =>
    if metaFrame.length ≤ methodOffset then .error .outOfBounds else
    if state.decompress then do
      let result ← decompressFrame codecs rounds body (metaFrame.getD methodOffset 0) state.compressionBuffer
      let state := { state with compressionBuffer := result.buffer }
      match result.body with
      -- a body that cannot be decompressed is sent on as it is
      | none => return (state,msg)
      | some newBody => return (state,stream::topic::newBody::metaFrame.set methodOffset noCompression::rest)
    else do
      let (buffer,newBody) ←
        compressMessageData codecs state.compressionMethod state.compressionBuffer [] body
      return ({ state with compressionBuffer := buffer },
        stream::topic::newBody::metaFrame.set methodOffset state.compressionMethod::rest)
  | _ => .error .absentFrame

/-- Writing the byte in the frame is setting the field of the struct. -/
lemma set_methodOffset (m : MsgMeta) (method : UInt8) :
    (msgAddMetaInfo m).set methodOffset method = msgAddMetaInfo { m with compressionMethod := method } := rfl

/-- A compressor changes the body and the method, and nothing else. -/
theorem handleCompressorRequest_compress {codecs : Codecs} {rounds : ℕ} {method : UInt8} {buffer : Chunk}
    {next : CompressorState} {stream topic body : Bytes} {m : MsgMeta} {out : List Bytes}
    (h : handleCompressorRequest codecs rounds ⟨method,buffer,false⟩
      [stream,topic,body,msgAddMetaInfo m] = .ok (next,out)) :
    ∃ grown newBody, compressMessageData codecs method buffer [] body = .ok (grown,newBody) ∧
      next = ⟨method,grown,false⟩ ∧
      out = [stream,topic,newBody,msgAddMetaInfo { m with compressionMethod := method }] := by
  have hlen : ¬(msgAddMetaInfo m).length ≤ methodOffset := by
    rw [msgAddMetaInfo,length_memory]
    decide
  simp only [handleCompressorRequest,if_neg hlen] at h
  cases hc : compressMessageData codecs method buffer [] body with
  | error e => simp [hc,bind,Except.bind] at h
  | ok result =>
    obtain ⟨grown,newBody⟩ := result
    simp only [hc,bind,Except.bind,pure,Except.pure,Except.ok.injEq,Prod.mk.injEq,set_methodOffset,
      Bool.false_eq_true,if_false] at h
    exact ⟨grown,newBody,rfl,h.1.symm,h.2.symm⟩

end Logjam.Relay
