import Logjam.Util.Compression

/-! Compressed bodies are decompressed to the original data, whatever the buffers have been used
for before. -/
namespace Logjam
open Logjam.Library Logjam.Library.Endian

/-! A codec library is the identity on data that fits the largest buffer, and its output respects
the bound it gives. -/

structure Zlib.Lawful (lib : Zlib) : Prop where
  length_encode : ∀ data : Bytes, data.length ≤ maxBufferSize →
    (lib.encode data).length ≤ lib.compressBound data.length
  decode_encode : ∀ data : Bytes, data.length ≤ maxBufferSize → lib.decode (lib.encode data) = some data

structure Snappy.Lawful (lib : Snappy) : Prop where
  length_encode : ∀ data : Bytes, data.length ≤ maxBufferSize →
    (lib.encode data).length ≤ lib.maxCompressedLength data.length
  uncompressedLength_encode : ∀ data : Bytes, data.length ≤ maxBufferSize →
    lib.uncompressedLength (lib.encode data) = some data.length
  decode_encode : ∀ data : Bytes, data.length ≤ maxBufferSize → lib.decode (lib.encode data) = some data

structure Lz4.Lawful (lib : Lz4) : Prop where
  length_encode : ∀ data : Bytes, data.length ≤ maxBufferSize →
    ((lib.encode data).length : ℤ) ≤ lz4CompressBound data.length
  encode_ne_nil : ∀ data : Bytes, data.length ≤ maxBufferSize → lib.encode data ≠ []
  decode_encode : ∀ data : Bytes, data.length ≤ maxBufferSize → lib.decode (lib.encode data) = some data

structure Codecs.Lawful (codecs : Codecs) : Prop where
  zlib : codecs.zlib.Lawful
  snappy : codecs.snappy.Lawful
  lz4 : codecs.lz4.Lawful

/-- The decompression buffers of the parsers, which start with their own size, and of compressors
that run as decompressors. -/
inductive DecompressionBuffer (codecs : Codecs) : Chunk → Prop
  | parser : DecompressionBuffer codecs initialDecompressionBufferSize
  | decompressor : DecompressionBuffer codecs initialCompressionBufferSize
  | decompress {buffer next : Chunk} {rounds : ℕ} {method : UInt8} {source data : Bytes}
      (before : DecompressionBuffer codecs buffer)
      (eq : decompressFrame codecs rounds source method buffer = .ok ⟨some data,next⟩) :
      DecompressionBuffer codecs next

variable {codecs : Codecs} {buffer : Chunk} {data : Bytes}

/-- No call enlarges a buffer beyond the limit, whether it succeeds or not. -/
theorem decompressFrame_buffer_le {rounds : ℕ} {source : Bytes} {method : UInt8} {result : Decompressed}
    (hb : buffer ≤ maxBufferSize) (h : decompressFrame codecs rounds source method buffer = .ok result) :
    result.buffer ≤ maxBufferSize := by
  unfold decompressFrame at h
  split_ifs at h
  · exact (decompressFrameGzip_ok hb h).2
  · exact (decompressFrameSnappy_ok hb h).2
  · exact (decompressFrameLz4_ok hb h).2
  · obtain rfl := Except.ok.inj h
    exact hb

theorem DecompressionBuffer.le (h : DecompressionBuffer codecs buffer) : buffer ≤ maxBufferSize := by
  induction h with
  | parser => decide
  | decompressor => decide
  | decompress _ eq ih => exact decompressFrame_buffer_le ih eq

/-- Output within the bound is written to a buffer that has grown to hold the bound. -/
lemma compressWithBound_eq {compress : ℕ → Bytes → Option Bytes} {bound : ℕ} {compressed : Bytes}
    (h : compress bound data = some compressed) (hlen : compressed.length ≤ bound) (buffer : Chunk) :
    compressWithBound compress bound buffer data =
      .ok (growCompressionBuffer buffer bound,compressed) := by
  have hgrow := le_growCompressionBuffer buffer bound
  simp only [compressWithBound,h]
  rw [if_pos (hlen.trans hgrow)]

/-! zlib -/

lemma compressMessageDataGzip_eq {lib : Zlib} (laws : lib.Lawful) (hd : data.length ≤ maxBufferSize)
    (buffer : Chunk) : compressMessageDataGzip lib buffer data =
      .ok (growCompressionBuffer buffer (lib.compressBound data.length),lib.encode data) :=
  have hlen := laws.length_encode data hd
  compressWithBound_eq (within_eq_some.mpr ⟨rfl,hlen⟩) hlen buffer

lemma decompressFrameGzip_encode {lib : Zlib} (laws : lib.Lawful) (hd : data.length ≤ maxBufferSize)
    (hb : buffer ≤ maxBufferSize) :
    ∃ rounds next, decompressFrameGzip lib rounds (lib.encode data) buffer = .ok ⟨some data,next⟩ := by
  have hdecode := laws.decode_encode data hd
  obtain ⟨rounds,⟨body,next⟩,h⟩ := exists_decompressFrameGzip hb hdecode hd
  obtain ⟨⟨d,hd',rfl,_⟩,_⟩ := decompressFrameGzip_ok hb h
  obtain rfl := Option.some.inj (hdecode.symm.trans hd')
  exact ⟨rounds,next,h⟩

/-! snappy -/

lemma compressMessageDataSnappy_eq {lib : Snappy} (laws : lib.Lawful)
    (hd : data.length ≤ maxBufferSize) (buffer : Chunk) : compressMessageDataSnappy lib buffer data =
      .ok (growCompressionBuffer buffer (lib.maxCompressedLength data.length),lib.encode data) :=
  have hlen := laws.length_encode data hd
  compressWithBound_eq (within_eq_some.mpr ⟨rfl,hlen⟩) hlen buffer

/-- The buffer holds an announced length that is within the limit. -/
lemma le_zchunkEnsureSize (hb : buffer ≤ maxBufferSize) {desiredSize : ℕ}
    (h : desiredSize ≤ maxBufferSize) : desiredSize ≤ zchunkEnsureSize buffer desiredSize := by
  by_contra hlt
  have hmax := (zchunkEnsureSize_lt_iff hb desiredSize).mp (not_le.mp hlt)
  omega

lemma decompressFrameSnappy_encode {lib : Snappy} (laws : lib.Lawful)
    (hd : data.length ≤ maxBufferSize) (hb : buffer ≤ maxBufferSize) :
    decompressFrameSnappy lib (lib.encode data) buffer =
      .ok ⟨some data,zchunkEnsureSize buffer data.length⟩ := by
  have hfit := le_zchunkEnsureSize hb hd
  have hu : lib.uncompress (zchunkEnsureSize buffer data.length) (lib.encode data) = some data :=
    within_eq_some.mpr ⟨laws.decode_encode data hd,hfit⟩
  simp only [decompressFrameSnappy,laws.uncompressedLength_encode data hd]
  rw [if_neg (not_lt.mpr hfit),hu]

/-! lz4 -/

lemma length_lt_of_le_maxBufferSize (hd : data.length ≤ maxBufferSize) : data.length < 2^26 := by
  have hmax : (maxBufferSize : ℕ) = 33554432 := rfl
  omega

lemma lz4CompressBound_eq {n : ℕ} (h : n < 2^26) : lz4CompressBound n = n+n/255+16 := by
  rw [lz4CompressBound,lz4MaxInputSize,if_neg (by omega)]

lemma compressMessageDataLz4_eq {lib : Lz4} (laws : lib.Lawful) (hd : data.length ≤ maxBufferSize)
    (buffer : Chunk) : compressMessageDataLz4 lib buffer data =
      .ok (growCompressionBuffer buffer (lz4CompressBound data.length+4).toNat,
        lz4Header data.length ++ lib.encode data) := by
  have hlt := length_lt_of_le_maxBufferSize hd
  have hint : toInt32 data.length = data.length := toInt32_of_lt (by omega)
  have hbound := laws.length_encode data hd
  have heq := lz4CompressBound_eq hlt
  have hgrow := le_growCompressionBuffer buffer (lz4CompressBound data.length+4).toNat
  have hpos := List.length_pos_iff.mpr (laws.encode_ne_nil data hd)
  have hc : lib.compressDefault data data.length (lz4CompressBound data.length+4) =
      some (lib.encode data) := by
    rw [Lz4.compressDefault,lz4MaxInputSize,if_neg (by omega),Int.toNat_natCast,List.take_length]
    exact within_eq_some.mpr ⟨rfl,by omega⟩
  simp only [compressMessageDataLz4,hint,hc]
  rw [if_neg (by omega),if_neg (by omega),if_neg (by omega)]

lemma lz4AnnouncedLength_append {n : ℕ} (h : n < 2^32) (block : Bytes) :
    lz4AnnouncedLength (lz4Header n ++ block) = n := by
  have htake : (lz4Header n ++ block).take 4 = lz4Header n := List.take_left' (length_leBytes 4 _)
  rw [lz4AnnouncedLength,htake,lz4Header,leValue_leBytes_of_lt (htonl (UInt32.ofNat n)).toNat_lt,
    UInt32.ofNat_toNat,htonl_htonl,UInt32.toNat_ofNat',Nat.mod_eq_of_lt h]

lemma decompressFrameLz4_encode {lib : Lz4} (laws : lib.Lawful) (hd : data.length ≤ maxBufferSize)
    (hb : buffer ≤ maxBufferSize) :
    decompressFrameLz4 lib (lz4Header data.length ++ lib.encode data) buffer =
      .ok ⟨some data,zchunkEnsureSize buffer data.length⟩ := by
  have hlt := length_lt_of_le_maxBufferSize hd
  have hfit := le_zchunkEnsureSize hb hd
  have hbound := laws.length_encode data hd
  rw [lz4CompressBound_eq hlt] at hbound
  have hheader : (lz4Header data.length).length = 4 := length_leBytes 4 _
  have hlen : (lz4Header data.length ++ lib.encode data).length-4 = (lib.encode data).length := by
    rw [List.length_append,hheader]
    omega
  have hdrop : (lz4Header data.length ++ lib.encode data).drop 4 = lib.encode data :=
    List.drop_left' hheader
  have hu : lib.decompressSafe (lib.encode data) (lib.encode data).length
      (zchunkEnsureSize buffer data.length : ℕ) = some data := by
    rw [Lz4.decompressSafe,if_neg (by omega),Int.toNat_natCast,Int.toNat_natCast,List.take_length]
    exact within_eq_some.mpr ⟨laws.decode_encode data hd,by omega⟩
  simp only [decompressFrameLz4,lz4AnnouncedLength_append (by omega : data.length < 2^32),hlen,hdrop]
  rw [if_neg (by simp [hheader]),if_neg (not_lt.mpr hfit),toInt32_of_lt (by omega),
    toInt32_chunk (zchunkEnsureSize_le hb _),hu]

/-- What one method makes of the data, and how its frame is read back. -/
lemma roundTrip (laws : codecs.Lawful) {method : UInt8}
    (hm : method = zlibCompression ∨ method = snappyCompression ∨ method = lz4Compression)
    (hd : data.length ≤ maxBufferSize) (buffer : Chunk) (body : Bytes) :
    ∃ next frame, compressMessageData codecs method buffer body data = .ok (next,frame) ∧
      ∀ dest : Chunk, dest ≤ maxBufferSize → ∃ rounds grown,
        decompressFrame codecs rounds frame method dest = .ok ⟨some data,grown⟩ := by
  obtain rfl | rfl | rfl := hm
  · have hc := compressMessageDataGzip_eq laws.zlib hd buffer
    refine ⟨_,_,by rw [compressMessageData,if_pos rfl,hc],fun dest hdest => ?_⟩
    obtain ⟨rounds,grown,h⟩ := decompressFrameGzip_encode laws.zlib hd hdest
    exact ⟨rounds,grown,by rw [decompressFrame,if_pos rfl,h]⟩
  · have hc := compressMessageDataSnappy_eq laws.snappy hd buffer
    refine ⟨_,_,by rw [compressMessageData,if_neg (by decide),if_pos rfl,hc],fun dest hdest => ?_⟩
    have h := decompressFrameSnappy_encode laws.snappy hd hdest
    exact ⟨0,_,by rw [decompressFrame,if_neg (by decide),if_pos rfl,h]⟩
  · have hc := compressMessageDataLz4_eq laws.lz4 hd buffer
    refine ⟨_,_,by rw [compressMessageData,if_neg (by decide),if_neg (by decide),if_pos rfl,hc],
      fun dest hdest => ?_⟩
    have h := decompressFrameLz4_encode laws.lz4 hd hdest
    exact ⟨0,_,by rw [decompressFrame,if_neg (by decide),if_neg (by decide),if_pos rfl,h]⟩

/-- Whatever the two buffers have been used for, the frame that compress_message_data makes of the
data is decompressed to the data, and no decompression enlarges its buffer beyond the limit. -/
theorem decompressFrame_compressMessageData (laws : codecs.Lawful) {method : UInt8}
    (hm : method = zlibCompression ∨ method = snappyCompression ∨ method = lz4Compression)
    (hd : data.length ≤ maxBufferSize) (buffer : Chunk) (body : Bytes) {dest : Chunk}
    (hdest : DecompressionBuffer codecs dest) :
    (∃ next frame rounds grown, compressMessageData codecs method buffer body data = .ok (next,frame) ∧
      decompressFrame codecs rounds frame method dest = .ok ⟨some data,grown⟩) ∧
    dest ≤ maxBufferSize ∧ ∀ rounds source method result,
      decompressFrame codecs rounds source method dest = .ok result → result.buffer ≤ maxBufferSize := by
  obtain ⟨next,frame,hcompress,hread⟩ := roundTrip laws hm hd buffer body
  obtain ⟨rounds,grown,hdecompress⟩ := hread dest hdest.le
  exact ⟨⟨next,frame,rounds,grown,hcompress,hdecompress⟩,hdest.le,
    fun _ _ _ _ h => decompressFrame_buffer_le hdest.le h⟩

/-! The sample codecs are lawful. -/

lemma sampleZlib_lawful : sampleZlib.Lawful where
  length_encode data _ := by
    simp only [sampleZlib]
    split
    · rename_i h
      subst h
      decide
    · simp only [List.length_cons]
      omega
  decode_encode data _ := by
    by_cases h : data = lit "a"
    · subst h
      decide
    · simp [sampleZlib,h]

lemma length_varintEncode_le (k n : ℕ) : (varintEncode k n).length ≤ k := by
  induction k generalizing n with
  | zero => simp [varintEncode]
  | succ k ih =>
    rw [varintEncode]
    split
    · simp
    · simpa using ih (n/128)

lemma varintDecode_varintEncode {k n : ℕ} (h : n < 128^k) (hk : 0 < k) (rest : Bytes) :
    varintDecode k (varintEncode k n ++ rest) = some (n,rest) := by
  induction k generalizing n with
  | zero => omega
  | succ k ih =>
    rw [varintEncode]
    split
    · rename_i hn
      have hv : (UInt8.ofNat n).toNat = n := by rw [UInt8.toNat_ofNat']; omega
      have hb : UInt8.ofNat n < 128 := by
        rw [UInt8.lt_iff_toNat_lt,hv]
        exact hn
      simp [varintDecode,hb,hv]
    · rename_i hn
      have hv : (UInt8.ofNat (128+n%128)).toNat = 128+n%128 := by rw [UInt8.toNat_ofNat']; omega
      have hb : ¬UInt8.ofNat (128+n%128) < 128 := by
        rw [UInt8.lt_iff_toNat_lt,hv]
        simp
      have hdiv : n/128 < 128^k := by
        rw [pow_succ] at h
        omega
      have hk' : 0 < k := by
        rcases k with _ | k
        · simp at h
          omega
        · omega
      rw [List.cons_append,varintDecode,if_neg hb,ih hdiv hk',hv]
      simp only [Option.map_some,Option.some.injEq,Prod.mk.injEq,and_true]
      omega

lemma sampleSnappy_lawful : sampleSnappy.Lawful where
  length_encode data _ := by
    have h := length_varintEncode_le 5 data.length
    simp only [sampleSnappy,List.length_append,List.length_cons]
    omega
  uncompressedLength_encode data hd := by
    have hlt := length_lt_of_le_maxBufferSize hd
    simp only [sampleSnappy]
    rw [varintDecode_varintEncode (by omega) (by omega)]
    rfl
  decode_encode data hd := by
    have hlt := length_lt_of_le_maxBufferSize hd
    simp only [sampleSnappy]
    rw [varintDecode_varintEncode (by omega) (by omega)]
    simp

lemma sampleLz4_lawful : sampleLz4.Lawful where
  length_encode data hd := by
    rw [lz4CompressBound_eq (length_lt_of_le_maxBufferSize hd)]
    simp only [sampleLz4,List.length_cons]
    omega
  encode_ne_nil data _ := List.cons_ne_nil _ _
  decode_encode data _ := by simp [sampleLz4]

def sampleCodecs : Codecs := ⟨sampleZlib,sampleSnappy,sampleLz4⟩

lemma sampleCodecs_lawful : sampleCodecs.Lawful := ⟨sampleZlib_lawful,sampleSnappy_lawful,sampleLz4_lawful⟩

theorem decompressFrame_compressMessageData_a :
    (∃ next frame rounds grown,
      compressMessageData sampleCodecs lz4Compression initialCompressionBufferSize [] (lit "a") =
        .ok (next,frame) ∧
      decompressFrame sampleCodecs rounds frame lz4Compression initialDecompressionBufferSize =
        .ok ⟨some (lit "a"),grown⟩) ∧
    initialDecompressionBufferSize ≤ maxBufferSize ∧ ∀ rounds source method result,
      decompressFrame sampleCodecs rounds source method initialDecompressionBufferSize = .ok result →
        result.buffer ≤ maxBufferSize :=
  decompressFrame_compressMessageData sampleCodecs_lawful (.inr (.inr rfl)) (by decide)
    initialCompressionBufferSize [] .parser

end Logjam
