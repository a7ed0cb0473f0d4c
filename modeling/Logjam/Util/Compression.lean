import Logjam.Library.Loop
import Logjam.Util.MetaInfo

/-! Compression and decompression of message bodies with buffers that are kept between calls. The
codec libraries are parameters; a call writes into a buffer of a given capacity and reports by its
return code whether the output fits. -/
namespace Logjam
open Logjam.Library Logjam.Library.Endian

structure Zlib where
  compressBound : ℕ → ℕ
  encode : Bytes → Bytes
  decode : Bytes → Option Bytes

structure Snappy where
  maxCompressedLength : ℕ → ℕ
  encode : Bytes → Bytes
  uncompressedLength : Bytes → Option ℕ
  decode : Bytes → Option Bytes

structure Lz4 where
  encode : Bytes → Bytes
  decode : Bytes → Option Bytes

structure Codecs where
  zlib : Zlib
  snappy : Snappy
  lz4 : Lz4

/-- The output of a call that succeeds only if it fits the destination. -/
def within (capacity : ℕ) (output : Option Bytes) : Option Bytes :=
  output.filter fun data => data.length ≤ capacity

def Zlib.compress (lib : Zlib) (capacity : ℕ) (data : Bytes) : Option Bytes :=
  within capacity (some (lib.encode data))

def Zlib.uncompress (lib : Zlib) (capacity : ℕ) (source : Bytes) : Option Bytes :=
  within capacity (lib.decode source)

def Snappy.compress (lib : Snappy) (capacity : ℕ) (data : Bytes) : Option Bytes :=
  within capacity (some (lib.encode data))

def Snappy.uncompress (lib : Snappy) (capacity : ℕ) (source : Bytes) : Option Bytes :=
  within capacity (lib.decode source)

def lz4MaxInputSize : ℤ := 0x7e000000

/-- The macro behind LZ4_compressBound, which compares as unsigned. -/
def lz4CompressBound (inputSize : ℤ) : ℤ :=
  if inputSize < 0 ∨ lz4MaxInputSize < inputSize then 0 else inputSize+inputSize/255+16

/-- LZ4_compress_default takes its sizes as int and returns 0 on failure. -/
def Lz4.compressDefault (lib : Lz4) (data : Bytes) (srcSize capacity : ℤ) : Option Bytes :=
  if srcSize < 0 ∨ lz4MaxInputSize < srcSize then none
  else within capacity.toNat (some (lib.encode (data.take srcSize.toNat)))

/-- LZ4_decompress_safe takes its sizes as int and returns a negative number on failure. -/
def Lz4.decompressSafe (lib : Lz4) (source : Bytes) (compressedSize capacity : ℤ) : Option Bytes :=
  if compressedSize < 0 ∨ capacity < 0 then none
  else within capacity.toNat (lib.decode (source.take compressedSize.toNat))

/-- A zchunk is used for its memory only, so it is its maximal size. -/
abbrev Chunk := ℕ+

def initialCompressionBufferSize : Chunk := 16*1024
def initialDecompressionBufferSize : Chunk := 32*1024
def maxBufferSize : Chunk := 32*1024*1024

/-- The loop that doubles a size while it is below the limit. -/
def doubleUntil (limit : ℕ) (next : Chunk) : Chunk :=
  if next < limit then doubleUntil limit (2*next) else next
termination_by limit-next
decreasing_by
  have hpos := next.pos
  simp only [PNat.mul_coe,PNat.val_ofNat]
  omega

/-- The buffer the three compression functions use for an output of at most the given size. -/
def growCompressionBuffer (buffer : Chunk) (bound : ℕ) : Chunk :=
  if buffer < bound then doubleUntil bound (2*buffer) else buffer

/-- The body shared by the gzip and the snappy function, with the library's compress and bound. -/
def compressWithBound (compress : ℕ → Bytes → Option Bytes) (bound : ℕ) (buffer : Chunk)
    (data : Bytes) : Except Fault (Chunk × Bytes) :=
  let buffer := growCompressionBuffer buffer bound
  match compress bound data with
  | some compressed =>
    if compressed.length ≤ buffer then .ok (buffer,compressed) else .error .assertFailed
  | none => .error .assertFailed

def compressMessageDataGzip (lib : Zlib) (buffer : Chunk) (data : Bytes) :
    Except Fault (Chunk × Bytes) :=
  compressWithBound lib.compress (lib.compressBound data.length) buffer data

def compressMessageDataSnappy (lib : Snappy) (buffer : Chunk) (data : Bytes) :
    Except Fault (Chunk × Bytes) :=
  compressWithBound lib.compress (lib.maxCompressedLength data.length) buffer data

/-- The length in network order, in front of the lz4 block. -/
def lz4Header (dataLen : ℕ) : Bytes := leBytes 4 (htonl (UInt32.ofNat dataLen)).toNat

def compressMessageDataLz4 (lib : Lz4) (buffer : Chunk) (data : Bytes) :
    Except Fault (Chunk × Bytes) :=
  let dataLen := toInt32 data.length
  let maxCompressedLen := lz4CompressBound dataLen+4
  if maxCompressedLen ≤ 0 then .error .assertFailed else
  let buffer := growCompressionBuffer buffer maxCompressedLen.toNat
  match lib.compressDefault data dataLen maxCompressedLen with
  | some compressed =>
    -- the capacity given to the library does not leave room for the header
    if (buffer : ℕ) < compressed.length+4 then .error .bufferOverflow else
    if compressed.length = 0 then .error .assertFailed else
      .ok (buffer,lz4Header data.length ++ compressed)
  | none => .error .assertFailed

/-- An unknown method leaves the message as it was. -/
def compressMessageData (codecs : Codecs) (method : UInt8) (buffer : Chunk) (body data : Bytes) :
    Except Fault (Chunk × Bytes) :=
  if method = zlibCompression then compressMessageDataGzip codecs.zlib buffer data
  else if method = snappyCompression then compressMessageDataSnappy codecs.snappy buffer data
  else if method = lz4Compression then compressMessageDataLz4 codecs.lz4 buffer data
  else .ok (buffer,body)

/-- The body when the return code is 1, and the buffer after the call. -/
structure Decompressed where
  body : Option Bytes
  buffer : Chunk
  deriving DecidableEq

/-- One round of the loop of decompress_frame_gzip. -/
def gzipRound (lib : Zlib) (source : Bytes) (buffer : Chunk) : Chunk ⊕ Decompressed :=
  if buffer ≤ maxBufferSize then
    match lib.uncompress buffer source with
    | some data => .inr ⟨some data,buffer⟩
    | none => .inl (min (2*buffer) maxBufferSize)
  else .inr ⟨none,buffer⟩

def decompressFrameGzip (lib : Zlib) (rounds : ℕ) (source : Bytes) (buffer : Chunk) :
    Except Fault Decompressed :=
  match whileLoop (gzipRound lib source) rounds buffer with
  | some result => .ok result
  | none => .error .stillRunning

def zchunkEnsureSize (buffer : Chunk) (desiredSize : ℕ) : Chunk :=
  if desiredSize ≤ buffer then buffer else min (doubleUntil maxBufferSize (2*buffer)) maxBufferSize

def decompressFrameSnappy (lib : Snappy) (source : Bytes) (buffer : Chunk) :
    Except Fault Decompressed :=
  match lib.uncompressedLength source with
  | none => .ok ⟨none,buffer⟩
  | some uncompressedLength =>
    let buffer := zchunkEnsureSize buffer uncompressedLength
    if buffer < uncompressedLength then .error .assertFailed
    else .ok ⟨lib.uncompress buffer source,buffer⟩

/-- The length a sender announces in front of an lz4 block. -/
def lz4AnnouncedLength (source : Bytes) : ℕ := (htonl (UInt32.ofNat (leValue (source.take 4)))).toNat

def decompressFrameLz4 (lib : Lz4) (source : Bytes) (buffer : Chunk) : Except Fault Decompressed :=
  if source.length < 4 then .error .outOfBounds else
  let uncompressedLength := lz4AnnouncedLength source
  let buffer := zchunkEnsureSize buffer uncompressedLength
  if buffer < uncompressedLength then .error .assertFailed
  else .ok ⟨lib.decompressSafe (source.drop 4) (toInt32 (source.length-4)) (toInt32 buffer),buffer⟩

def decompressFrame (codecs : Codecs) (rounds : ℕ) (source : Bytes) (method : UInt8) (buffer : Chunk) :
    Except Fault Decompressed :=
  if method = zlibCompression then decompressFrameGzip codecs.zlib rounds source buffer
  else if method = snappyCompression then decompressFrameSnappy codecs.snappy source buffer
  else if method = lz4Compression then decompressFrameLz4 codecs.lz4 source buffer
  else .ok ⟨none,buffer⟩

@[simp] lemma within_eq_some {capacity : ℕ} {output : Option Bytes} {data : Bytes} :
    within capacity output = some data ↔ output = some data ∧ data.length ≤ capacity := by
  simp [within,Option.filter_eq_some_iff]

/-! Sizes of the buffers. -/

theorem le_doubleUntil (limit : ℕ) (next : Chunk) : limit ≤ doubleUntil limit next := by
  fun_induction doubleUntil with
  | case1 next h ih => exact ih
  | case2 next h => exact not_lt.mp h

lemma le_growCompressionBuffer (buffer : Chunk) (bound : ℕ) :
    bound ≤ growCompressionBuffer buffer bound := by
  unfold growCompressionBuffer
  split
  · exact le_doubleUntil bound (2*buffer)
  · rename_i h
    exact not_lt.mp h

/-- The growth loop ignores the desired size: a buffer that is too small becomes the largest one. -/
theorem zchunkEnsureSize_eq (buffer : Chunk) (desiredSize : ℕ) :
    zchunkEnsureSize buffer desiredSize = if desiredSize ≤ buffer then buffer else maxBufferSize := by
  have h : maxBufferSize ≤ doubleUntil maxBufferSize (2*buffer) :=
    PNat.coe_le_coe _ _ |>.mp (le_doubleUntil maxBufferSize (2*buffer))
  rw [zchunkEnsureSize,min_eq_right h]

lemma zchunkEnsureSize_le {buffer : Chunk} (hb : buffer ≤ maxBufferSize) (desiredSize : ℕ) :
    zchunkEnsureSize buffer desiredSize ≤ maxBufferSize := by
  rw [zchunkEnsureSize_eq]
  split
  · exact hb
  · exact le_rfl

/-- The assertion after the growth fails exactly for lengths beyond the largest buffer. -/
lemma zchunkEnsureSize_lt_iff {buffer : Chunk} (hb : buffer ≤ maxBufferSize) (desiredSize : ℕ) :
    (zchunkEnsureSize buffer desiredSize : ℕ) < desiredSize ↔ (maxBufferSize : ℕ) < desiredSize := by
  have hb' : (buffer : ℕ) ≤ maxBufferSize := hb
  rw [zchunkEnsureSize_eq]
  split <;> omega

/-! The loop of decompress_frame_gzip. -/

variable {zlib : Zlib} {source : Bytes} {buffer : Chunk}

lemma gzipRound_inl {next : Chunk} (h : gzipRound zlib source buffer = .inl next) :
    buffer ≤ maxBufferSize ∧ zlib.uncompress buffer source = none ∧ next = min (2*buffer) maxBufferSize := by
  unfold gzipRound at h
  split at h
  · rename_i hb
    split at h
    · cases h
    · rename_i hu
      exact ⟨hb,hu,(Sum.inl.inj h).symm⟩
  · cases h

lemma gzipRound_inr {result : Decompressed} (hb : buffer ≤ maxBufferSize)
    (h : gzipRound zlib source buffer = .inr result) :
    ∃ data, zlib.uncompress buffer source = some data ∧ result = ⟨some data,buffer⟩ := by
  rw [gzipRound,if_pos hb] at h
  split at h
  · rename_i data hu
    exact ⟨data,hu,(Sum.inr.inj h).symm⟩
  · cases h

/-- The loop is only left with the decompressed data, and the buffer stays within its limit. -/
theorem decompressFrameGzip_ok {rounds : ℕ} {result : Decompressed} (hb : buffer ≤ maxBufferSize)
    (h : decompressFrameGzip zlib rounds source buffer = .ok result) :
    (∃ data, zlib.decode source = some data ∧ result.body = some data ∧ data.length ≤ result.buffer) ∧
      result.buffer ≤ maxBufferSize := by
  have hloop : whileLoop (gzipRound zlib source) rounds buffer = some result := by
    unfold decompressFrameGzip at h
    split at h
    · rename_i r hr
      obtain rfl := Except.ok.inj h
      exact hr
    · cases h
  refine whileLoop_invariant (P := (· ≤ maxBufferSize)) (Q := fun r => (∃ data,
    zlib.decode source = some data ∧ r.body = some data ∧ data.length ≤ r.buffer) ∧
      r.buffer ≤ maxBufferSize) ?_ ?_ hb hloop
  · intro s t _ hround
    obtain ⟨_,_,rfl⟩ := gzipRound_inl hround
    exact min_le_right _ _
  · intro s r hs hround
    obtain ⟨data,hu,rfl⟩ := gzipRound_inr hs hround
    obtain ⟨hdecode,hlen⟩ := within_eq_some.mp hu
    exact ⟨⟨data,hdecode,rfl,hlen⟩,hs⟩

/-- Data that fits the largest buffer is found after finitely many doublings. -/
theorem exists_decompressFrameGzip {data : Bytes} (hb : buffer ≤ maxBufferSize)
    (hdecode : zlib.decode source = some data) (hlen : data.length ≤ maxBufferSize) :
    ∃ rounds result, decompressFrameGzip zlib rounds source buffer = .ok result := by
  have hloop : ∃ rounds result, whileLoop (gzipRound zlib source) rounds buffer = some result :=
    exists_whileLoop (P := (· ≤ maxBufferSize)) (fun s => maxBufferSize-s) (by
      intro s t hs hround
      obtain ⟨_,hu,rfl⟩ := gzipRound_inl hround
      -- at the limit the data fits, so the loop only goes on below it
      have hlt : (s : ℕ) < maxBufferSize := by
        by_contra hge
        have hfit : zlib.uncompress s source = some data := within_eq_some.mpr ⟨hdecode,by omega⟩
        rw [hfit] at hu
        cases hu
      refine ⟨min_le_right _ _,?_⟩
      have hpos := s.pos
      have hmin : ((min (2*s) maxBufferSize : Chunk) : ℕ) = min (2*(s : ℕ)) maxBufferSize := by
        rw [Monotone.map_min (f := PNat.val) fun _ _ hle => hle,PNat.mul_coe,PNat.val_ofNat]
      rw [hmin]
      omega) hb
  obtain ⟨rounds,result,h⟩ := hloop
  exact ⟨rounds,result,by rw [decompressFrameGzip,h]⟩

/-- Corrupt data and data that is too large are tried again and again with the largest buffer. -/
theorem decompressFrameGzip_stillRunning (hb : buffer ≤ maxBufferSize)
    (h : ∀ data, zlib.decode source = some data → (maxBufferSize : ℕ) < data.length) (rounds : ℕ) :
    decompressFrameGzip zlib rounds source buffer = .error .stillRunning := by
  have hloop : whileLoop (gzipRound zlib source) rounds buffer = none :=
    whileLoop_eq_none (P := (· ≤ maxBufferSize)) (by
      intro s hs
      have hu : zlib.uncompress s source = none := by
        rw [Option.eq_none_iff_forall_ne_some]
        intro data hdata
        obtain ⟨hdecode,hlen⟩ := within_eq_some.mp hdata
        have hs' : (s : ℕ) ≤ maxBufferSize := hs
        have hlt := h data hdecode
        omega
      exact ⟨_,by rw [gzipRound,if_pos hs,hu],min_le_right _ _⟩) hb rounds
  rw [decompressFrameGzip,hloop]

/-- A codec with the output of zlib for the text "a"; other data is stored. -/
def sampleZlib : Zlib where
  compressBound n := n+n/4096+n/16384+n/33554432+13
  encode data :=
    if data = lit "a" then [0x78,0x9c,0x4b,0x04,0x00,0x00,0x62,0x00,0x62] else 0x78::0x01::data
  decode
    | [0x78,0x9c,0x4b,0x04,0x00,0x00,0x62,0x00,0x62] => some (lit "a")
    | 0x78::0x01::data => some data
    | _ => none

/-- The call ends, with the decompressed data or with return code 0, exactly if there is data and
it fits the largest buffer. -/
theorem decompressFrameGzip_ends_iff (zlib : Zlib) (source : Bytes) {buffer : Chunk}
    (hb : buffer ≤ maxBufferSize) :
    (∃ rounds result, decompressFrameGzip zlib rounds source buffer = .ok result ∧
      (result.body = none ∨ ∃ data, zlib.decode source = some data ∧ result.body = some data)) ↔
    ∃ data, zlib.decode source = some data ∧ data.length ≤ maxBufferSize := by
  constructor
  · rintro ⟨rounds,result,h,-⟩
    obtain ⟨⟨data,hdecode,_,hlen⟩,hmax⟩ := decompressFrameGzip_ok hb h
    exact ⟨data,hdecode,hlen.trans hmax⟩
  · rintro ⟨data,hdecode,hlen⟩
    obtain ⟨rounds,result,h⟩ := exists_decompressFrameGzip hb hdecode hlen
    obtain ⟨⟨d,hd,hbody,_⟩,_⟩ := decompressFrameGzip_ok hb h
    exact ⟨rounds,result,h,.inr ⟨d,hd,hbody⟩⟩

theorem decompressFrameGzip_ends_a :
    ∃ rounds result, decompressFrameGzip sampleZlib rounds (sampleZlib.encode (lit "a")) 1 = .ok result ∧
      (result.body = none ∨
        ∃ data, sampleZlib.decode (sampleZlib.encode (lit "a")) = some data ∧ result.body = some data) :=
  (decompressFrameGzip_ends_iff sampleZlib (sampleZlib.encode (lit "a")) (by decide)).mpr
    ⟨lit "a",by decide,by decide⟩

theorem decompressFrameGzip_corrupt : ¬∃ rounds result,
    decompressFrameGzip sampleZlib rounds (lit "no zlib data") initialDecompressionBufferSize =
      .ok result := by
  rintro ⟨rounds,result,h⟩
  have hnone : sampleZlib.decode (lit "no zlib data") = none := by decide
  rw [decompressFrameGzip_stillRunning (by decide) (by simp [hnone])] at h
  cases h

/-! Announced lengths: the assertions of decompress_frame_snappy and decompress_frame_lz4. -/

/-- The preamble of a snappy frame: groups of seven bits, the lowest ones first, in at most the
given number of bytes. -/
def varintEncode : ℕ → ℕ → Bytes
  | 0,_ => []
  | k+1,n => if n < 128 then [UInt8.ofNat n] else UInt8.ofNat (128+n%128)::varintEncode k (n/128)

def varintDecode : ℕ → Bytes → Option (ℕ × Bytes)
  | k+1,b::bs =>
    if b < 128 then some (b.toNat,bs)
    else (varintDecode k bs).map fun r => (b.toNat%128+128*r.1,r.2)
  | _,_ => none

/-- A codec with the output of snappy for short texts, which it stores as one literal. -/
def sampleSnappy : Snappy where
  maxCompressedLength n := 32+n+n/6
  encode data := varintEncode 5 data.length ++ UInt8.ofNat (4*(data.length-1))::data
  uncompressedLength source := (varintDecode 5 source).map Prod.fst
  decode source := match varintDecode 5 source with
    | some (n,_::data) => if data.length = n then some data else none
    | _ => none

/-- A codec with the output of lz4 for short texts, which it stores as one literal. -/
def sampleLz4 : Lz4 where
  encode data := UInt8.ofNat (16*data.length)::data
  decode
    | token::data => if token = UInt8.ofNat (16*data.length) then some data else none
    | [] => none

lemma length_le_of_within {capacity : ℕ} {output : Option Bytes} {data : Bytes}
    (h : within capacity output = some data) : data.length ≤ capacity := (within_eq_some.mp h).2

lemma length_le_of_decompressSafe {lib : Lz4} {data : Bytes} {size capacity : ℤ}
    (h : lib.decompressSafe source size capacity = some data) : (data.length : ℤ) ≤ capacity := by
  unfold Lz4.decompressSafe at h
  split at h
  · cases h
  · have hlen := length_le_of_within h
    omega

lemma toInt32_chunk {buffer : Chunk} (hb : buffer ≤ maxBufferSize) : toInt32 buffer = (buffer : ℕ) := by
  have hmax : (maxBufferSize : ℕ) = 33554432 := rfl
  have hb' : (buffer : ℕ) ≤ maxBufferSize := hb
  exact toInt32_of_lt (by omega)

theorem decompressFrameSnappy_ok {lib : Snappy} {result : Decompressed} (hb : buffer ≤ maxBufferSize)
    (h : decompressFrameSnappy lib source buffer = .ok result) :
    (∀ data, result.body = some data → data.length ≤ result.buffer) ∧ result.buffer ≤ maxBufferSize := by
  unfold decompressFrameSnappy at h
  split at h
  · obtain rfl := Except.ok.inj h
    exact ⟨fun data hdata => (nomatch hdata),hb⟩
  · rename_i n _
    dsimp only at h
    split at h
    · cases h
    · obtain rfl := Except.ok.inj h
      exact ⟨fun data hdata => length_le_of_within hdata,zchunkEnsureSize_le hb n⟩

theorem decompressFrameLz4_ok {lib : Lz4} {result : Decompressed} (hb : buffer ≤ maxBufferSize)
    (h : decompressFrameLz4 lib source buffer = .ok result) :
    (∀ data, result.body = some data → data.length ≤ result.buffer) ∧ result.buffer ≤ maxBufferSize := by
  unfold decompressFrameLz4 at h
  split at h
  · cases h
  · dsimp only at h
    split at h
    · cases h
    · obtain rfl := Except.ok.inj h
      have hle := zchunkEnsureSize_le hb (lz4AnnouncedLength source)
      refine ⟨fun data hdata => ?_,hle⟩
      have hlen := length_le_of_decompressSafe hdata
      rw [toInt32_chunk hle] at hlen
      exact_mod_cast hlen

lemma exists_decompressFrameSnappy_iff {lib : Snappy} (hb : buffer ≤ maxBufferSize) :
    (∃ result, decompressFrameSnappy lib source buffer = .ok result) ↔
      ∀ n, lib.uncompressedLength source = some n → n ≤ maxBufferSize := by
  cases hlen : lib.uncompressedLength source with
  | none => simp [decompressFrameSnappy,hlen]
  | some n =>
    simp only [decompressFrameSnappy,hlen,zchunkEnsureSize_lt_iff hb,Option.some.injEq,forall_eq']
    split
    · rename_i h
      exact ⟨fun ⟨_,hok⟩ => (nomatch hok),fun hle => absurd hle (not_le.mpr h)⟩
    · rename_i h
      exact ⟨fun _ => not_lt.mp h,fun _ => ⟨_,rfl⟩⟩

lemma lz4AnnouncedLength_eq (h : 4 ≤ source.length) :
    lz4AnnouncedLength source = beValue (source.take 4) := by
  have htake : (source.take 4).length = 4 := List.length_take_of_le h
  have hswap := byteSwap_leValue (source.take 4)
  rw [htake] at hswap
  have hlt : leValue (source.take 4) < 2^32 := (leValue_lt _).trans_eq (by rw [htake]; rfl)
  have hle : byteSwap 4 (leValue (source.take 4)) < 2^32 := byteSwap_lt 4 _
  rw [lz4AnnouncedLength,htonl,UInt32.toNat_ofNat',UInt32.toNat_ofNat',Nat.mod_eq_of_lt hlt,
    Nat.mod_eq_of_lt hle,hswap]

lemma exists_decompressFrameLz4_iff {lib : Lz4} (hb : buffer ≤ maxBufferSize) :
    (∃ result, decompressFrameLz4 lib source buffer = .ok result) ↔
      4 ≤ source.length ∧ beValue (source.take 4) ≤ maxBufferSize := by
  simp only [decompressFrameLz4,zchunkEnsureSize_lt_iff hb]
  split
  · rename_i h
    exact ⟨fun ⟨_,hok⟩ => (nomatch hok),fun hle => absurd hle.1 (not_le.mpr h)⟩
  · rename_i hlen
    rw [lz4AnnouncedLength_eq (not_lt.mp hlen)]
    split
    · rename_i h
      exact ⟨fun ⟨_,hok⟩ => (nomatch hok),fun hle => absurd hle.2 (not_le.mpr h)⟩
    · rename_i h
      exact ⟨fun _ => ⟨not_lt.mp hlen,not_lt.mp h⟩,fun _ => ⟨_,rfl⟩⟩

/-- Both calls return, and report no more than the buffer holds, exactly if the header is complete
and does not announce more than the largest buffer holds. -/
theorem decompressFrame_safe_iff (snappy : Snappy) (lz4 : Lz4) (source : Bytes) {buffer : Chunk}
    (hb : buffer ≤ maxBufferSize) :
    ((∃ result, decompressFrameSnappy snappy source buffer = .ok result ∧
        ∀ data, result.body = some data → data.length ≤ result.buffer) ↔
      ∀ n, snappy.uncompressedLength source = some n → n ≤ maxBufferSize) ∧
    ((∃ result, decompressFrameLz4 lz4 source buffer = .ok result ∧
        ∀ data, result.body = some data → data.length ≤ result.buffer) ↔
      4 ≤ source.length ∧ beValue (source.take 4) ≤ maxBufferSize) := by
  rw [← exists_decompressFrameSnappy_iff hb,← exists_decompressFrameLz4_iff hb]
  constructor
  · constructor
    · rintro ⟨result,h,-⟩
      exact ⟨result,h⟩
    · rintro ⟨result,h⟩
      exact ⟨result,h,(decompressFrameSnappy_ok hb h).1⟩
  · constructor
    · rintro ⟨result,h,-⟩
      exact ⟨result,h⟩
    · rintro ⟨result,h⟩
      exact ⟨result,h,(decompressFrameLz4_ok hb h).1⟩

theorem decompressFrame_safe_a :
    (∃ result, decompressFrameSnappy sampleSnappy [0x01,0x00,0x61] 1 = .ok result ∧
        ∀ data, result.body = some data → data.length ≤ result.buffer) ∧
      ∃ result, decompressFrameLz4 sampleLz4 [0x00,0x00,0x00,0x01,0x10,0x61] 1 = .ok result ∧
        ∀ data, result.body = some data → data.length ≤ result.buffer := by
  refine ⟨(decompressFrame_safe_iff sampleSnappy sampleLz4 _ (by decide)).1.mpr ?_,
    (decompressFrame_safe_iff sampleSnappy sampleLz4 _ (by decide)).2.mpr (by decide +kernel)⟩
  intro n hn
  have hone : sampleSnappy.uncompressedLength [0x01,0x00,0x61] = some 1 := by decide +kernel
  obtain rfl := Option.some.inj (hone.symm.trans hn)
  exact maxBufferSize.pos

theorem decompressFrame_unsafe :
    decompressFrameSnappy sampleSnappy [0xff,0xff,0xff,0xff,0x0f] initialDecompressionBufferSize =
        .error .assertFailed ∧
      decompressFrameLz4 sampleLz4 [0x7f,0xff,0xff,0xff,0x10,0x61] initialDecompressionBufferSize =
        .error .assertFailed ∧
      decompressFrameLz4 sampleLz4 [0x10,0x61] initialDecompressionBufferSize =
        .error .outOfBounds := by
  simp only [decompressFrameSnappy,decompressFrameLz4,zchunkEnsureSize_eq]
  decide +kernel

end Logjam
