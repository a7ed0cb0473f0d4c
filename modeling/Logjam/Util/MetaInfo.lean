import Logjam.Basic.Bytes
import Logjam.Library.Endian

/-! The fourth frame of a message. The C code copies a struct to and from the frame, so the layout
is that of the struct in the memory of a little-endian host, with the fields in network order. -/
namespace Logjam
open Logjam.Library.Endian

def noCompression : UInt8 := 0
def zlibCompression : UInt8 := 1
def snappyCompression : UInt8 := 2
def lz4Compression : UInt8 := 3

def metaInfoVersion : UInt8 := 1
def metaInfoTag : UInt16 := 0xcabd

@[ext] structure MsgMeta where
  tag : UInt16
  compressionMethod : UInt8
  version : UInt8
  deviceNumber : UInt32
  createdMs : UInt64
  sequenceNumber : UInt64
  deriving Repr, DecidableEq

def metaInfoEmpty : MsgMeta := ⟨metaInfoTag,noCompression,metaInfoVersion,0,0,0⟩

/-- The size of the struct, which has no padding. -/
def sizeofMsgMeta : ℕ := 24

def MsgMeta.memory (m : MsgMeta) : Bytes :=
  leBytes 2 m.tag.toNat ++ ([m.compressionMethod,m.version] ++
    (leBytes 4 m.deviceNumber.toNat ++
      (leBytes 8 m.createdMs.toNat ++ leBytes 8 m.sequenceNumber.toNat)))

def MsgMeta.ofMemory (data : Bytes) : MsgMeta where
  tag := UInt16.ofNat (leValue (data.take 2))
  compressionMethod := data.getD 2 0
  version := data.getD 3 0
  deviceNumber := UInt32.ofNat (leValue ((data.drop 4).take 4))
  createdMs := UInt64.ofNat (leValue ((data.drop 8).take 8))
  sequenceNumber := UInt64.ofNat (leValue ((data.drop 16).take 8))

def htons (x : UInt16) : UInt16 := UInt16.ofNat (byteSwap 2 x.toNat)
def htonl (x : UInt32) : UInt32 := UInt32.ofNat (byteSwap 4 x.toNat)
def htonll (x : UInt64) : UInt64 := UInt64.ofNat (byteSwap 8 x.toNat)

/-- The loop of htonll, for systems without it: the bytes in memory are shifted in one by one. -/
def htonllLoop (netNumber : UInt64) : UInt64 :=
  (leBytes 8 netNumber.toNat).foldl (fun result byte => (result <<< 8)+byte.toUInt64) 0

/-- The loop of ntohll: the last bytes of the number are written to memory from the back. -/
def ntohllLoop (nativeNumber : UInt64) : UInt64 :=
  let round := fun (state : Bytes × UInt64) => (state.2.toUInt8::state.1,state.2 >>> 8)
  UInt64.ofNat (leValue (round^[8] ([],nativeNumber)).1)

/-- The tag is set to the protocol constant, whatever it was before. -/
def metaInfoEncode (m : MsgMeta) : MsgMeta :=
  { m with
    tag := htons metaInfoTag
    deviceNumber := htonl m.deviceNumber
    createdMs := htonll m.createdMs
    sequenceNumber := htonll m.sequenceNumber }

def metaInfoDecode (m : MsgMeta) : MsgMeta :=
  { m with
    tag := htons m.tag
    deviceNumber := htonl m.deviceNumber
    createdMs := htonll m.createdMs
    sequenceNumber := htonll m.sequenceNumber }

/-- The frame written by msg_add_meta_info and zmsg_add_meta_info. -/
def msgAddMetaInfo (m : MsgMeta) : Bytes := (metaInfoEncode m).memory

/-- Return code and out parameter. A frame of the right size overwrites the out parameter even if
its tag or version is wrong; a frame of another size leaves it alone. -/
def frameExtractMetaInfo (frame : Bytes) (m : MsgMeta) : Bool × MsgMeta :=
  if frame.length = sizeofMsgMeta then
    let m := metaInfoDecode (.ofMemory frame)
    (!(m.tag != metaInfoTag || m.version != metaInfoVersion),m)
  else (false,m)

def zmqMsgExtractMetaInfo (frame : Bytes) (m : MsgMeta) : Bool × MsgMeta := frameExtractMetaInfo frame m

/-- The meta information in a frame of the right size. -/
def decodedMeta (frame : Bytes) : MsgMeta := metaInfoDecode (.ofMemory frame)

/-- A frame that carries meta information: right size, tag and version. -/
def ValidMeta (frame : Bytes) : Prop :=
  frame.length = sizeofMsgMeta ∧ (decodedMeta frame).tag = metaInfoTag ∧
    (decodedMeta frame).version = metaInfoVersion

instance (frame : Bytes) : Decidable (ValidMeta frame) := by unfold ValidMeta; infer_instance

/-- Messages without a meta frame are left alone. The numbers are written as zeros in place. -/
def zmsgClearDeviceAndSequenceNumber (msg : List Bytes) : Except Fault (List Bytes) :=
  match msg with
  | [stream,topic,body,frame] =>
    if frame.length = sizeofMsgMeta then
      .ok [stream,topic,body,
        { MsgMeta.ofMemory frame with deviceNumber := 0, sequenceNumber := 0 }.memory]
    else .error .assertFailed
  | _ => .ok msg

/-- Messages without a meta frame are left alone. The numbers are written in network order, in
place; the return code tells whether there was something to write to. -/
def zmsgSetDeviceAndSequenceNumber (msg : List Bytes) (deviceNumber : UInt32) (sequenceNumber : UInt64) :
    Except Fault (Bool × List Bytes) :=
  match msg with
  | [stream,topic,body,frame] =>
    if frame.length = sizeofMsgMeta then
      .ok (true,[stream,topic,body,
        { MsgMeta.ofMemory frame with
          deviceNumber := htonl deviceNumber
          sequenceNumber := htonll sequenceNumber }.memory])
    else .error .assertFailed
  | _ => .ok (false,msg)

@[simp] lemma length_memory (m : MsgMeta) : m.memory.length = sizeofMsgMeta := by
  simp [MsgMeta.memory,sizeofMsgMeta]

lemma htons_htons (x : UInt16) : htons (htons x) = x := by
  apply UInt16.toNat_inj.mp
  have h : byteSwap 2 x.toNat < 2^16 := byteSwap_lt 2 x.toNat
  have hx := x.toNat_lt
  rw [htons,htons,UInt16.toNat_ofNat',UInt16.toNat_ofNat',Nat.mod_eq_of_lt h,byteSwap_byteSwap hx,
    Nat.mod_eq_of_lt hx]

lemma htonl_htonl (x : UInt32) : htonl (htonl x) = x := by
  apply UInt32.toNat_inj.mp
  have h : byteSwap 4 x.toNat < 2^32 := byteSwap_lt 4 x.toNat
  have hx := x.toNat_lt
  rw [htonl,htonl,UInt32.toNat_ofNat',UInt32.toNat_ofNat',Nat.mod_eq_of_lt h,byteSwap_byteSwap hx,
    Nat.mod_eq_of_lt hx]

lemma htonll_htonll (x : UInt64) : htonll (htonll x) = x := by
  apply UInt64.toNat_inj.mp
  have h : byteSwap 8 x.toNat < 2^64 := byteSwap_lt 8 x.toNat
  have hx := x.toNat_lt
  rw [htonll,htonll,UInt64.toNat_ofNat',UInt64.toNat_ofNat',Nat.mod_eq_of_lt h,byteSwap_byteSwap hx,
    Nat.mod_eq_of_lt hx]

lemma drop_four_memory (m : MsgMeta) : m.memory.drop 4 = leBytes 4 m.deviceNumber.toNat ++
    (leBytes 8 m.createdMs.toNat ++ leBytes 8 m.sequenceNumber.toNat) := rfl

lemma drop_eight_memory (m : MsgMeta) :
    m.memory.drop 8 = leBytes 8 m.createdMs.toNat ++ leBytes 8 m.sequenceNumber.toNat := rfl

lemma drop_sixteen_memory (m : MsgMeta) : m.memory.drop 16 = leBytes 8 m.sequenceNumber.toNat := rfl

/-- Copying the struct into a frame and back loses nothing. -/
theorem ofMemory_memory (m : MsgMeta) : MsgMeta.ofMemory m.memory = m := by
  apply MsgMeta.ext
  · simp [MsgMeta.ofMemory,MsgMeta.memory,leValue_leBytes]
  · rfl
  · rfl
  · rw [MsgMeta.ofMemory,drop_four_memory,List.take_left' (length_leBytes _ _),
      leValue_leBytes_of_lt m.deviceNumber.toNat_lt,UInt32.ofNat_toNat]
  · rw [MsgMeta.ofMemory,drop_eight_memory,List.take_left' (length_leBytes _ _),
      leValue_leBytes_of_lt m.createdMs.toNat_lt,UInt64.ofNat_toNat]
  · rw [MsgMeta.ofMemory,drop_sixteen_memory,List.take_of_length_le (length_leBytes _ _).le,
      leValue_leBytes_of_lt m.sequenceNumber.toNat_lt,UInt64.ofNat_toNat]

theorem metaInfoDecode_metaInfoEncode (m : MsgMeta) :
    metaInfoDecode (metaInfoEncode m) = { m with tag := metaInfoTag } := by
  apply MsgMeta.ext
  · exact htons_htons metaInfoTag
  · rfl
  · rfl
  · exact htonl_htonl m.deviceNumber
  · exact htonll_htonll m.createdMs
  · exact htonll_htonll m.sequenceNumber

/-- A receiver decodes what msg_add_meta_info has written, apart from the tag. -/
theorem decodedMeta_msgAddMetaInfo (m : MsgMeta) :
    decodedMeta (msgAddMetaInfo m) = { m with tag := metaInfoTag } := by
  rw [decodedMeta,msgAddMetaInfo,ofMemory_memory,metaInfoDecode_metaInfoEncode]

lemma validMeta_msgAddMetaInfo {m : MsgMeta} (h : m.version = metaInfoVersion) :
    ValidMeta (msgAddMetaInfo m) := by
  refine ⟨length_memory _,?_,?_⟩
  · exact congrArg MsgMeta.tag (decodedMeta_msgAddMetaInfo m)
  · exact (congrArg MsgMeta.version (decodedMeta_msgAddMetaInfo m)).trans h

theorem frameExtractMetaInfo_fst (frame : Bytes) (m : MsgMeta) :
    (frameExtractMetaInfo frame m).1 = true ↔ ValidMeta frame := by
  unfold frameExtractMetaInfo ValidMeta decodedMeta
  split
  · rename_i h
    simp [h]
  · rename_i h
    simp [h]

lemma frameExtractMetaInfo_of_valid {frame : Bytes} (h : ValidMeta frame) (m : MsgMeta) :
    frameExtractMetaInfo frame m = (true,decodedMeta frame) := by
  have hrc := (frameExtractMetaInfo_fst frame m).mpr h
  apply Prod.ext hrc
  rw [frameExtractMetaInfo,if_pos h.1]
  rfl

/-! The loops for the byte order. -/

lemma shift_in_byte (n : ℕ) (b : UInt8) :
    (UInt64.ofNat n <<< 8)+b.toUInt64 = UInt64.ofNat (b.toNat+256*n) := by
  have hb := b.toNat_lt
  apply UInt64.toNat_inj.mp
  rw [UInt64.toNat_add,UInt64.toNat_shiftLeft,UInt64.toNat_ofNat',UInt64.toNat_ofNat',UInt8.toNat_toUInt64,
    show (8 : UInt64).toNat%64 = 8 from rfl,Nat.shiftLeft_eq]
  omega

theorem htonllLoop_eq (x : UInt64) : htonllLoop x = htonll x := by
  have hfold (bs : Bytes) : bs.foldl (fun (result : UInt64) byte => (result <<< 8)+byte.toUInt64) 0 =
      UInt64.ofNat (beValue bs) := by
    induction bs using List.reverseRecOn with
    | nil => rfl
    | append_singleton bs b ih =>
      rw [List.foldl_append,List.foldl_cons,List.foldl_nil,ih,shift_in_byte,beValue_concat]
  exact hfold _

theorem ntohllLoop_eq (x : UInt64) : ntohllLoop x = htonll x := by
  have hround (k : ℕ) (bytes : Bytes) (n : UInt64) :
      ((fun (state : Bytes × UInt64) => (state.2.toUInt8::state.1,state.2 >>> 8))^[k] (bytes,n)).1 =
        (leBytes k n.toNat).reverse ++ bytes := by
    induction k generalizing bytes n with
    | zero => rfl
    | succ k ih =>
      have hbyte : n.toUInt8 = UInt8.ofNat n.toNat := rfl
      have hshift : (n >>> 8).toNat = n.toNat/256 := by
        rw [UInt64.toNat_shiftRight,show (8 : UInt64).toNat%64 = 8 from rfl,Nat.shiftRight_eq_div_pow]
      rw [Function.iterate_succ_apply,ih,hshift,hbyte,leBytes,List.reverse_cons,List.append_assoc]
      rfl
  simp only [ntohllLoop,hround,List.append_nil]
  rfl

/-! Writing the numbers in place. -/

/-- What has been decoded from a frame says everything about it. -/
lemma decodedMeta_memory (m : MsgMeta) : decodedMeta m.memory = metaInfoDecode m := by
  rw [decodedMeta,ofMemory_memory]

/-- Other numbers leave a frame valid. -/
lemma ValidMeta.renumbered {frame : Bytes} (h : ValidMeta frame) {m : MsgMeta} {deviceNumber : UInt32} {sequenceNumber : UInt64}
    (hdecoded : decodedMeta m.memory = { decodedMeta frame with
      deviceNumber := deviceNumber, sequenceNumber := sequenceNumber }) : ValidMeta m.memory := by
  refine ⟨length_memory _,?_,?_⟩
  · rw [hdecoded]
    exact h.2.1
  · rw [hdecoded]
    exact h.2.2

theorem zmsgSetDeviceAndSequenceNumber_of_valid {frame : Bytes} (h : ValidMeta frame)
    (stream topic body : Bytes) (deviceNumber : UInt32) (sequenceNumber : UInt64) :
    ∃ changed, zmsgSetDeviceAndSequenceNumber [stream,topic,body,frame] deviceNumber sequenceNumber =
        .ok (true,[stream,topic,body,changed]) ∧ ValidMeta changed ∧
      decodedMeta changed = { decodedMeta frame with
        deviceNumber := deviceNumber, sequenceNumber := sequenceNumber } := by
  have hdecoded : decodedMeta { MsgMeta.ofMemory frame with
      deviceNumber := htonl deviceNumber, sequenceNumber := htonll sequenceNumber }.memory =
        { decodedMeta frame with deviceNumber := deviceNumber, sequenceNumber := sequenceNumber } := by
    rw [decodedMeta_memory,metaInfoDecode,htonl_htonl,htonll_htonll]
    rfl
  exact ⟨_,if_pos h.1,h.renumbered hdecoded,hdecoded⟩

theorem zmsgClearDeviceAndSequenceNumber_of_valid {frame : Bytes} (h : ValidMeta frame)
    (stream topic body : Bytes) :
    ∃ changed, zmsgClearDeviceAndSequenceNumber [stream,topic,body,frame] =
        .ok [stream,topic,body,changed] ∧ ValidMeta changed ∧
      decodedMeta changed = { decodedMeta frame with deviceNumber := 0, sequenceNumber := 0 } := by
  have hdecoded : decodedMeta { MsgMeta.ofMemory frame with deviceNumber := 0, sequenceNumber := 0 }.memory =
      { decodedMeta frame with deviceNumber := 0, sequenceNumber := 0 } := by
    have hdevice : htonl 0 = 0 := by decide
    have hnumber : htonll 0 = 0 := by decide
    rw [decodedMeta_memory,metaInfoDecode,hdevice,hnumber]
    rfl
  exact ⟨_,if_pos h.1,h.renumbered hdecoded,hdecoded⟩

end Logjam
