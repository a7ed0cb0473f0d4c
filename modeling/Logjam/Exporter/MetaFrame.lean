import Logjam.Exporter.MessageParser

/-! Meta frames across the two languages: what one side writes, and what the other reads or
accepts. -/
namespace Logjam.Exporter
open Logjam.Library.Endian

/-- The frame as Go programs write it, at the given time. -/
def packInfo (seqNum : UInt64) (deviceID : UInt32) (compression : UInt8) (currentTime : UInt64) : Bytes :=
  beBytes 2 metaInfoTag.toNat ++ ([compression,metaInfoVersion] ++
    (beBytes 4 deviceID.toNat ++ (beBytes 8 currentTime.toNat ++ beBytes 8 seqNum.toNat)))

/-- The fields as C names them. -/
def MetaInfo.toMsgMeta (info : MetaInfo) : MsgMeta where
  tag := info.tag
  compressionMethod := info.compressionMethod
  version := info.version
  deviceNumber := info.deviceNumber
  createdMs := info.timestamp
  sequenceNumber := info.sequenceNumber

lemma htons_leValue {bs : Bytes} (h : bs.length = 2) :
    htons (UInt16.ofNat (leValue bs)) = UInt16.ofNat (beValue bs) := by
  have hlt : leValue bs < 2^16 := by simpa [h] using leValue_lt bs
  rw [htons,UInt16.toNat_ofNat',Nat.mod_eq_of_lt hlt,← h,byteSwap_leValue]

/-- Frames of the right size are read alike. -/
theorem unpackInfo_eq {data : Bytes} (h : data.length = sizeofMsgMeta) :
    (unpackInfo data).map MetaInfo.toMsgMeta = some (decodedMeta data) := by
  have hlength : data.length = 24 := h
  rw [unpackInfo,if_neg (not_not.mpr hlength),Option.map_some,Option.some.injEq]
  apply MsgMeta.ext
  · exact (htons_leValue (by simp [hlength])).symm
  · rfl
  · rfl
  · exact (htonl_leValue (by simp [hlength])).symm
  · exact (htonll_leValue (by simp [hlength])).symm
  · exact (htonll_leValue (by simp [hlength])).symm

lemma leBytes_htons (x : UInt16) : leBytes 2 (htons x).toNat = beBytes 2 x.toNat := by
  have h : byteSwap 2 x.toNat < 2^16 := byteSwap_lt 2 x.toNat
  rw [htons,UInt16.toNat_ofNat',Nat.mod_eq_of_lt h,leBytes_byteSwap,beBytes]

lemma leBytes_htonl (x : UInt32) : leBytes 4 (htonl x).toNat = beBytes 4 x.toNat := by
  have h : byteSwap 4 x.toNat < 2^32 := byteSwap_lt 4 x.toNat
  rw [htonl,UInt32.toNat_ofNat',Nat.mod_eq_of_lt h,leBytes_byteSwap,beBytes]

lemma leBytes_htonll (x : UInt64) : leBytes 8 (htonll x).toNat = beBytes 8 x.toNat := by
  have h : byteSwap 8 x.toNat < 2^64 := byteSwap_lt 8 x.toNat
  rw [htonll,UInt64.toNat_ofNat',Nat.mod_eq_of_lt h,leBytes_byteSwap,beBytes]

/-- Both languages write the same bytes. -/
theorem packInfo_eq (seqNum : UInt64) (deviceID : UInt32) (compression : UInt8) (currentTime : UInt64) :
    packInfo seqNum deviceID compression currentTime =
      msgAddMetaInfo ⟨metaInfoTag,compression,metaInfoVersion,deviceID,currentTime,seqNum⟩ := by
  rw [msgAddMetaInfo,metaInfoEncode,MsgMeta.memory,leBytes_htons,leBytes_htonl,leBytes_htonll,leBytes_htonll]
  rfl

lemma length_msgAddMetaInfo (m : MsgMeta) : (msgAddMetaInfo m).length = sizeofMsgMeta := length_memory _

lemma frameExtractMetaInfo_msgAddMetaInfo {m : MsgMeta} (htag : m.tag = metaInfoTag)
    (hversion : m.version = metaInfoVersion) (out : MsgMeta) :
    frameExtractMetaInfo (msgAddMetaInfo m) out = (true,m) := by
  rw [frameExtractMetaInfo_of_valid (validMeta_msgAddMetaInfo hversion),decodedMeta_msgAddMetaInfo,← htag]

/-- The encoding loses nothing, whichever byte order functions are used, the languages share it, and
the two functions that work on a frame in place change the numbers they are meant to change and
nothing else. -/
theorem metaFrame_lossless :
    (∀ x, htonllLoop x = htonll x ∧ ntohllLoop x = htonll x) ∧
    (∀ m out, m.tag = metaInfoTag → m.version = metaInfoVersion →
      frameExtractMetaInfo (msgAddMetaInfo m) out = (true,m)) ∧
    (∀ m, m.tag = metaInfoTag → (unpackInfo (msgAddMetaInfo m)).map MetaInfo.toMsgMeta = some m) ∧
    (∀ seqNum deviceID compression currentTime out,
      frameExtractMetaInfo (packInfo seqNum deviceID compression currentTime) out =
        (true,⟨metaInfoTag,compression,metaInfoVersion,deviceID,currentTime,seqNum⟩)) ∧
    ∀ stream topic body frame, ValidMeta frame →
      (∀ deviceNumber sequenceNumber, ∃ changed,
        zmsgSetDeviceAndSequenceNumber [stream,topic,body,frame] deviceNumber sequenceNumber =
          .ok (true,[stream,topic,body,changed]) ∧ ValidMeta changed ∧
        decodedMeta changed = { decodedMeta frame with
          deviceNumber := deviceNumber, sequenceNumber := sequenceNumber }) ∧
      ∃ changed, zmsgClearDeviceAndSequenceNumber [stream,topic,body,frame] =
          .ok [stream,topic,body,changed] ∧ ValidMeta changed ∧
        decodedMeta changed = { decodedMeta frame with deviceNumber := 0, sequenceNumber := 0 } := by
  refine ⟨fun x => ⟨htonllLoop_eq x,ntohllLoop_eq x⟩,
    fun m out htag hversion => frameExtractMetaInfo_msgAddMetaInfo htag hversion out,
    fun m htag => ?_,fun seqNum deviceID compression currentTime out => ?_,
    fun stream topic body frame hvalid => ⟨fun deviceNumber sequenceNumber => ?_,?_⟩⟩
  · rw [unpackInfo_eq (length_msgAddMetaInfo m),decodedMeta_msgAddMetaInfo,← htag]
  · rw [packInfo_eq]
    exact frameExtractMetaInfo_msgAddMetaInfo rfl rfl out
  · exact zmsgSetDeviceAndSequenceNumber_of_valid hvalid stream topic body deviceNumber sequenceNumber
  · exact zmsgClearDeviceAndSequenceNumber_of_valid hvalid stream topic body

/-- A frame of device 7 is taken over by device 9. -/
theorem metaFrame_lossless_renumbered :
    ValidMeta (packInfo 5 7 0 1000) ∧ ∃ changed,
      zmsgSetDeviceAndSequenceNumber [[],[],[],packInfo 5 7 0 1000] 9 1 = .ok (true,[[],[],[],changed]) ∧
      decodedMeta changed = ⟨metaInfoTag,0,metaInfoVersion,9,1000,1⟩ := by
  have hvalid : ValidMeta (packInfo 5 7 0 1000) := packInfo_eq 5 7 0 1000 ▸ validMeta_msgAddMetaInfo rfl
  obtain ⟨changed,hset,-,hdecoded⟩ := (metaFrame_lossless.2.2.2.2 [] [] [] _ hvalid).1 9 1
  refine ⟨hvalid,changed,hset,?_⟩
  rw [hdecoded,packInfo_eq,decodedMeta_msgAddMetaInfo]

/-! What is accepted. -/

/-- The exporter passes a message on to its decoders if the last frame has the right size. -/
lemma tasks_receive_ne_iff (p : MessageParser) (stream topic body data : Bytes) :
    (receive p [stream,topic,body,data]).tasks ≠ p.tasks ↔ data.length = sizeofMsgMeta := by
  by_cases h : data.length = sizeofMsgMeta
  · have hlength : data.length = 24 := h
    refine iff_of_true ?_ h
    simp [receive,unpackInfo,hlength]
  · have hlength : data.length ≠ 24 := h
    simp [receive,unpackInfo,hlength,h]

/-- The exporter accepts the frames the C programs accept, and in addition all frames of the right
size with another tag or version. -/
theorem accepted_alike_iff (p : MessageParser) (stream topic body data : Bytes) (out : MsgMeta) :
    ((frameExtractMetaInfo data out).1 = true ↔ ValidMeta data) ∧
    (((receive p [stream,topic,body,data]).tasks ≠ p.tasks ↔ (frameExtractMetaInfo data out).1 = true) ↔
      (data.length = sizeofMsgMeta →
        (decodedMeta data).tag = metaInfoTag ∧ (decodedMeta data).version = metaInfoVersion)) := by
  refine ⟨frameExtractMetaInfo_fst data out,?_⟩
  rw [tasks_receive_ne_iff,frameExtractMetaInfo_fst,ValidMeta]
  tauto

/-- Twenty-four zeros. -/
theorem accepted_zeros :
    (frameExtractMetaInfo (List.replicate 24 0) metaInfoEmpty).1 = false ∧
      (receive new [[],[],[],List.replicate 24 0]).tasks ≠ [] := by
  decide

end Logjam.Exporter
