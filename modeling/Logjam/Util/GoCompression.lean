import Logjam.Util.MetaInfo

/-! Compression in the Go programs. The codec libraries stay abstract; an lz4 block has the length of the data in
front of it. -/
namespace Logjam.GoUtil
open Logjam.Library.Endian

inductive Panic
  | sliceBoundsOutOfRange
  | nilDereference
  deriving Repr, DecidableEq

inductive CodecError
  | malformed
  | notCompressible
  deriving Repr, DecidableEq

/-- What a function returns next to its error. -/
abbrev Returned := Bytes × Option CodecError

/-- The zlib package: whether NewReader accepts the start of the data, and what can be read then. -/
structure Zlib where
  encode : Bytes → Bytes
  newReader : Bytes → Bool
  readAll : Bytes → Option Bytes

structure Snappy where
  encode : Bytes → Bytes
  decode : Bytes → Option Bytes

/-- Both functions write to the start of a buffer of the given size. -/
structure Lz4 where
  compressBlock : Bytes → ℕ → Returned
  uncompressBlock : Bytes → ℕ → Returned

structure Codecs where
  zlib : Zlib
  snappy : Snappy
  lz4 : Lz4

def Lz4.compressBlockBound (n : ℕ) : ℕ := n+n/255+16

/-- The buffer is filled with zeros where nothing has been written. -/
def filled (size : ℕ) (written : Bytes) : Bytes := written ++ List.replicate (size-written.length) 0

def returned (data : Option Bytes) : Returned :=
  match data with
  | some data => (data,none)
  | none => ([],some .malformed)

/-- The deferred call of Close comes before the check of the error. -/
def decompress (codecs : Codecs) (data : Bytes) (method : UInt8) : Except Panic Returned :=
  if method = lz4Compression then
    if data.length < 4 then .error .sliceBoundsOutOfRange
    else
      let decompressedLen := beValue (data.take 4)
      let (written,err) := codecs.lz4.uncompressBlock (data.drop 4) decompressedLen
      .ok (filled decompressedLen written,err)
  else if method = snappyCompression then .ok (returned (codecs.snappy.decode data))
  else if method = zlibCompression then
    if codecs.zlib.newReader data then .ok (returned (codecs.zlib.readAll data))
    else .error .nilDereference
  else .ok (data,none)

/-- The size of an lz4 block that is compared with the data is zero if the data has not been compressed. -/
def compress (codecs : Codecs) (data : Bytes) (method : UInt8) : Returned :=
  if method = lz4Compression then
    let maxCompressedLen := Lz4.compressBlockBound data.length
    let (written,err) := codecs.lz4.compressBlock data maxCompressedLen
    if written.length ≥ data.length then ([],some .notCompressible)
    else (beBytes 4 (data.length%2^32) ++ written,err)
  else if method = snappyCompression then (codecs.snappy.encode data,none)
  else if method = zlibCompression then (codecs.zlib.encode data,none)
  else (data,none)

/-! What the documentation of the libraries says. -/

structure Zlib.Lawful (lib : Zlib) : Prop where
  newReader_encode : ∀ data,lib.newReader (lib.encode data) = true
  readAll_encode : ∀ data,lib.readAll (lib.encode data) = some data

def Snappy.Lawful (lib : Snappy) : Prop := ∀ data,lib.decode (lib.encode data) = some data

/-- A block that is not empty can be restored. -/
structure Lz4.Lawful (lib : Lz4) : Prop where
  fits : ∀ source size,(lib.uncompressBlock source size).1.length ≤ size
  restores : ∀ data block,lib.compressBlock data (compressBlockBound data.length) = (block,none) → block ≠ [] →
    lib.uncompressBlock block data.length = (data,none)

structure Codecs.Lawful (codecs : Codecs) : Prop where
  zlib : codecs.zlib.Lawful
  snappy : codecs.snappy.Lawful
  lz4 : codecs.lz4.Lawful

variable {codecs : Codecs} {data : Bytes} {method : UInt8}

/-! Codecs with the output of the libraries for a run of equal bytes and for texts too short to be compressed. -/

def ones (n : ℕ) : Bytes := List.replicate n 49

/-- Data is stored behind the header. -/
def sampleZlib : Zlib where
  encode data := 0x78::0x9c::data
  newReader data := data.take 2 == [0x78,0x9c]
  readAll data := some (data.drop 2)

/-- One literal, a match of twelve bytes with offset one, and twelve literals. -/
def sampleBlock : Bytes := [0x18,0x31,0x01,0x00,0xc0] ++ ones 12

/-- Data without a block is not compressed. -/
def sampleLz4 : Lz4 where
  compressBlock data _ := (if data = ones 25 then sampleBlock else [],none)
  uncompressBlock source size := (if source = sampleBlock then (ones 25).take size else [],none)

/-- The length, one literal, and a copy of 63 bytes with offset one. -/
def sampleFrame : Bytes := [0x40,0x00,0x31,0xfa,0x01,0x00]

/-- Other data is stored as one literal. -/
def sampleSnappy : Snappy where
  encode data := if data = ones 64 then sampleFrame
    else UInt8.ofNat data.length::UInt8.ofNat (4*(data.length-1))::data
  decode source := if source = sampleFrame then some (ones 64) else some (source.drop 2)

def sampleCodecs : Codecs := ⟨sampleZlib,sampleSnappy,sampleLz4⟩

lemma sampleZlib_lawful : sampleZlib.Lawful := ⟨fun data => by simp [sampleZlib],fun _ => rfl⟩

lemma sampleSnappy_lawful : sampleSnappy.Lawful := by
  intro data
  dsimp only [sampleSnappy]
  by_cases h : data = ones 64
  · rw [if_pos h,if_pos rfl,h]
  · have hne : UInt8.ofNat data.length::UInt8.ofNat (4*(data.length-1))::data ≠ sampleFrame := by
      intro heq
      have hlength : data.length = 4 := by simpa [sampleFrame] using congrArg List.length heq
      rw [hlength] at heq
      exact absurd (List.cons.inj heq).1 (by decide)
    rw [if_neg h,if_neg hne]
    rfl

lemma sampleLz4_lawful : sampleLz4.Lawful where
  fits source size := by
    simp only [sampleLz4]
    split_ifs
    · exact List.length_take_le _ _
    · exact Nat.zero_le _
  restores data block hblock hne := by
    obtain ⟨rfl⟩ : _ = block := congrArg Prod.fst hblock
    by_cases hrun : data = ones 25
    · subst hrun
      decide
    · exact absurd (if_neg hrun) hne

lemma sampleCodecs_lawful : sampleCodecs.Lawful := ⟨sampleZlib_lawful,sampleSnappy_lawful,sampleLz4_lawful⟩

/-! Panics. -/

/-- Data that is too short for the length of an lz4 block, or that is no zlib stream from the start, ends the
program. -/
theorem decompress_returns_iff (codecs : Codecs) (data : Bytes) (method : UInt8) :
    (∃ result,decompress codecs data method = .ok result) ↔
      (method = lz4Compression → 4 ≤ data.length) ∧ (method = zlibCompression → codecs.zlib.newReader data = true) := by
  unfold decompress
  split_ifs with hlz4 hshort hsnappy hzlib hreader
  · exact iff_of_false (by simp) fun h => absurd (h.1 hlz4) (not_le.mpr hshort)
  · refine iff_of_true ⟨_,rfl⟩ ⟨fun _ => not_lt.mp hshort,fun hzlib => ?_⟩
    exact absurd (hlz4.symm.trans hzlib) (by decide)
  · refine iff_of_true ⟨_,rfl⟩ ⟨fun h => absurd h hlz4,fun hzlib => ?_⟩
    exact absurd (hsnappy.symm.trans hzlib) (by decide)
  · exact iff_of_true ⟨_,rfl⟩ ⟨fun h => absurd h hlz4,fun _ => hreader⟩
  · exact iff_of_false (by simp) fun h => hreader (h.2 hzlib)
  · exact iff_of_true ⟨_,rfl⟩ ⟨fun h => absurd h hlz4,fun h => absurd h hzlib⟩

/-- An empty body. -/
theorem decompress_empty :
    decompress sampleCodecs [] lz4Compression = .error .sliceBoundsOutOfRange ∧
      decompress sampleCodecs [] zlibCompression = .error .nilDereference := by
  decide

/-! Round trips. -/

lemma beValue_beBytes (w v : ℕ) : beValue (beBytes w v) = v%256^w := by
  rw [beValue,beBytes,List.reverse_reverse,leValue_leBytes]

lemma length_beBytes (w v : ℕ) : (beBytes w v).length = w := by rw [beBytes,List.length_reverse,length_leBytes]

lemma compress_lz4 {block : Bytes} {err : Option CodecError}
    (h : codecs.lz4.compressBlock data (Lz4.compressBlockBound data.length) = (block,err)) :
    compress codecs data lz4Compression =
      if data.length ≤ block.length then ([],some .notCompressible) else (beBytes 4 (data.length%2^32) ++ block,err) := by
  simp only [compress,if_true,h,ge_iff_le]

/-- A block comes back as what is restored from it. -/
lemma decompress_lz4 (codecs : Codecs) (n : ℕ) (block : Bytes) :
    decompress codecs (beBytes 4 (n%2^32) ++ block) lz4Compression =
      .ok (filled (n%2^32) (codecs.lz4.uncompressBlock block (n%2^32)).1,
        (codecs.lz4.uncompressBlock block (n%2^32)).2) := by
  have hlength := length_beBytes 4 (n%2^32)
  have hvalue : beValue (beBytes 4 (n%2^32)) = n%2^32 := by
    rw [beValue_beBytes]
    exact Nat.mod_eq_of_lt (Nat.mod_lt _ (by decide))
  unfold decompress
  rw [if_pos rfl,if_neg (by rw [List.length_append,hlength]; omega),List.take_left' hlength,List.drop_left' hlength,hvalue]

lemma length_filled {size : ℕ} {written : Bytes} (h : written.length ≤ size) : (filled size written).length = size := by
  rw [filled,List.length_append,List.length_replicate]
  omega

/-- If there is no error, the data is restored. -/
def RoundTrips (codecs : Codecs) (data : Bytes) (method : UInt8) : Prop :=
  ∀ compressed,compress codecs data method = (compressed,none) → decompress codecs compressed method = .ok (data,none)

lemma roundTrips_of_ne (hz : codecs.zlib.Lawful) (hs : codecs.snappy.Lawful) (hmethod : method ≠ lz4Compression) :
    RoundTrips codecs data method := by
  intro compressed hcompress
  unfold compress at hcompress
  unfold decompress
  rw [if_neg hmethod] at hcompress ⊢
  split_ifs at hcompress ⊢ with hsnappy hzlib hreader
  · obtain ⟨rfl⟩ : _ = compressed := congrArg Prod.fst hcompress
    rw [hs]
    rfl
  · obtain ⟨rfl⟩ : _ = compressed := congrArg Prod.fst hcompress
    rw [hz.readAll_encode]
    rfl
  · obtain ⟨rfl⟩ : _ = compressed := congrArg Prod.fst hcompress
    exact absurd (hz.newReader_encode data) hreader
  · obtain ⟨rfl⟩ : _ = compressed := congrArg Prod.fst hcompress
    rfl

lemma roundTrips_lz4_iff (h : codecs.Lawful) :
    RoundTrips codecs data lz4Compression ↔
      let written := codecs.lz4.compressBlock data (Lz4.compressBlockBound data.length)
      data.length ≤ written.1.length ∨ written.2 ≠ none ∨ data.length < 2^32 ∧
        (written.1 ≠ [] ∨ ((codecs.lz4.uncompressBlock [] data.length).2 = none ∧
          filled data.length (codecs.lz4.uncompressBlock [] data.length).1 = data)) := by
  dsimp only
  rcases hwritten : codecs.lz4.compressBlock data (Lz4.compressBlockBound data.length) with ⟨block,err⟩
  unfold RoundTrips
  rw [compress_lz4 hwritten]
  by_cases hlong : data.length ≤ block.length
  · rw [if_pos hlong]
    exact iff_of_true (fun _ hc => absurd (congrArg Prod.snd hc) (by simp)) (.inl hlong)
  rw [if_neg hlong,or_iff_right hlong]
  cases err with
  | some e => exact iff_of_true (fun _ hc => absurd (congrArg Prod.snd hc) (by simp)) (.inl (by simp))
  | none =>
    have hone : (∀ compressed,(beBytes 4 (data.length%2^32) ++ block,(none : Option CodecError)) = (compressed,none) →
        decompress codecs compressed lz4Compression = .ok (data,none)) ↔
        filled (data.length%2^32) (codecs.lz4.uncompressBlock block (data.length%2^32)).1 = data ∧
          (codecs.lz4.uncompressBlock block (data.length%2^32)).2 = none := by
      simp only [Prod.mk.injEq,and_true,forall_eq',decompress_lz4,Except.ok.injEq]
    rw [hone,or_iff_right (not_not.mpr rfl)]
    -- a header that has lost the upper bits of the length gives another length
    by_cases hsize : data.length < 2^32
    · rw [Nat.mod_eq_of_lt hsize,and_iff_right hsize]
      by_cases hblock : block = []
      · rw [hblock,or_iff_right (not_not.mpr rfl),and_comm]
      · have hrestored := h.lz4.restores data block hwritten hblock
        refine iff_of_true ?_ (.inl hblock)
        rw [hrestored]
        simp [filled]
    · refine iff_of_false (fun hc => ?_) fun hc => hsize hc.1
      have hlength := congrArg List.length hc.1
      rw [length_filled (h.lz4.fits _ _)] at hlength
      omega

/-- Data that lz4 cannot compress is lost without an error, unless it happens to be what an empty block is restored
to, and so is data whose length does not fit the header. -/
theorem roundTrips_iff (codecs : Codecs) (h : codecs.Lawful) (data : Bytes) (method : UInt8) :
    RoundTrips codecs data method ↔
      let written := codecs.lz4.compressBlock data (Lz4.compressBlockBound data.length)
      method ≠ lz4Compression ∨ data.length ≤ written.1.length ∨ written.2 ≠ none ∨ data.length < 2^32 ∧
        (written.1 ≠ [] ∨ ((codecs.lz4.uncompressBlock [] data.length).2 = none ∧
          filled data.length (codecs.lz4.uncompressBlock [] data.length).1 = data)) := by
  by_cases hmethod : method = lz4Compression
  · rw [hmethod,roundTrips_lz4_iff h]
    exact (or_iff_right (not_not.mpr rfl)).symm
  · exact iff_of_true (roundTrips_of_ne h.zlib h.snappy hmethod) (.inl hmethod)

theorem roundTrips_run : RoundTrips sampleCodecs (ones 25) lz4Compression :=
  (roundTrips_iff sampleCodecs sampleCodecs_lawful _ _).mpr (by decide)

/-- Two different bytes come back as zeros. -/
theorem compress_incompressible :
    compress sampleCodecs (lit "ab") lz4Compression = ([0,0,0,2],none) ∧
      decompress sampleCodecs [0,0,0,2] lz4Compression = .ok ([0,0],none) ∧ lit "ab" ≠ [0,0] := by
  decide

end Logjam.GoUtil
