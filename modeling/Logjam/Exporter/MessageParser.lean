import Logjam.Util.GapAccounting

/-! The receiving loop of the Prometheus exporter, and its count of missed messages next to that of
the device tracker. -/
namespace Logjam
open Logjam.Library.Endian Logjam.Library.Gaps

namespace Exporter

structure MetaInfo where
  tag : UInt16
  compressionMethod : UInt8
  version : UInt8
  deviceNumber : UInt32
  timestamp : UInt64
  sequenceNumber : UInt64
  deriving DecidableEq

/-- Neither the tag nor the version is checked. -/
def unpackInfo (data : Bytes) : Option MetaInfo :=
  if data.length ≠ 24 then none else
  some {
    tag := UInt16.ofNat (beValue (data.take 2))
    compressionMethod := data.getD 2 0
    version := data.getD 3 0
    deviceNumber := UInt32.ofNat (beValue ((data.drop 4).take 4))
    timestamp := UInt64.ofNat (beValue ((data.drop 8).take 8))
    sequenceNumber := UInt64.ofNat (beValue ((data.drop 16).take 8)) }

structure Stats where
  processed : UInt64
  processedBytes : UInt64
  dropped : UInt64
  missed : UInt64
  raw : Int64

structure MessageParser where
  sequenceNumbers : Std.ExtTreeMap UInt32 UInt64 compare
  stats : Stats
  /-- What was put into the channel of the decoders. -/
  tasks : List (List Bytes × MetaInfo)

def new : MessageParser := ⟨∅,⟨0,0,0,0,0⟩,[]⟩

/-- What is added to the missed messages. -/
def gap (lastNumber n : UInt64) : UInt64 :=
  if n ≠ lastNumber+1 ∧ n > lastNumber ∧ lastNumber ≠ 0 then n-lastNumber+1 else 0

/-- One round of the loop for a message that was received. -/
def receive (p : MessageParser) (msg : List Bytes) : MessageParser :=
  let stats := { p.stats with
    processed := p.stats.processed+1
    processedBytes := p.stats.processedBytes+UInt64.ofNat (msg.map List.length).sum }
  let drop := { p with stats := { stats with dropped := stats.dropped+1 } }
  match msg with
  | [_,_,_,data] =>
    match unpackInfo data with
    | none => drop
    | some info =>
      let lastNumber := p.sequenceNumbers.getD info.deviceNumber 0
      let (d,n) := (info.deviceNumber,info.sequenceNumber)
      { sequenceNumbers := p.sequenceNumbers.insert d n
        stats := { stats with missed := stats.missed+gap lastNumber n, raw := stats.raw+1 }
        tasks := p.tasks ++ [(msg,info)] }
  | _ => drop

/-- The meta information of a message that is not dropped. -/
def infoOf : List Bytes → Option MetaInfo
  | [_,_,_,data] => unpackInfo data
  | _ => none

/-- What the messages of one device add to the missed messages. -/
def missedOf (device : UInt32) : MessageParser → List (List Bytes) → ℕ
  | _,[] => 0
  | p,msg::rest =>
    (if (infoOf msg).map MetaInfo.deviceNumber = some device then
      ((receive p msg).stats.missed-p.stats.missed).toNat else 0)+missedOf device (receive p msg) rest

/-- The gaps found in the numbers of one device. -/
def gapsAfter : UInt64 → List UInt64 → ℕ
  | _,[] => 0
  | lastNumber,n::rest => (gap lastNumber n).toNat+gapsAfter n rest

end Exporter

/-- A message as devices send it. -/
structure DeviceMessage where
  appEnv : Bytes
  routingKey : Bytes
  body : Bytes
  info : Bytes
  valid : ValidMeta info

def DeviceMessage.frames (msg : DeviceMessage) : List Bytes :=
  [msg.appEnv,msg.routingKey,msg.body,msg.info]

/-- What a subscriber of the importer hands to its tracker. -/
def DeviceMessage.tracked (msg : DeviceMessage) : MsgMeta × Option Bytes :=
  (decodedMeta msg.info,if msg.appEnv == lit "heartbeat" then some (cstr msg.routingKey) else none)

namespace Exporter

lemma htonl_leValue {bs : Bytes} (h : bs.length = 4) :
    htonl (UInt32.ofNat (leValue bs)) = UInt32.ofNat (beValue bs) := by
  have hlt : leValue bs < 2^32 := by simpa [h] using leValue_lt bs
  rw [htonl,UInt32.toNat_ofNat',Nat.mod_eq_of_lt hlt,← h,byteSwap_leValue]

lemma htonll_leValue {bs : Bytes} (h : bs.length = 8) :
    htonll (UInt64.ofNat (leValue bs)) = UInt64.ofNat (beValue bs) := by
  have hlt : leValue bs < 2^64 := by simpa [h] using leValue_lt bs
  rw [htonll,UInt64.toNat_ofNat',Nat.mod_eq_of_lt hlt,← h,byteSwap_leValue]

/-- The exporter and the C programs read the same device and number. -/
lemma infoOf_frames (msg : DeviceMessage) :
    ∃ info, infoOf msg.frames = some info ∧ info.deviceNumber = msg.tracked.1.deviceNumber ∧
      info.sequenceNumber = msg.tracked.1.sequenceNumber := by
  have hlength : msg.info.length = 24 := msg.valid.1
  refine ⟨_,if_neg (not_not.mpr hlength),?_,?_⟩
  · exact (htonl_leValue (by simp [hlength])).symm
  · exact (htonll_leValue (by simp [hlength])).symm

/-- A message that is not dropped. -/
lemma receive_of_infoOf {msg : List Bytes} {info : MetaInfo} (h : infoOf msg = some info)
    (p : MessageParser) :
    (receive p msg).sequenceNumbers = p.sequenceNumbers.insert info.deviceNumber info.sequenceNumber ∧
      (receive p msg).stats.missed =
        p.stats.missed+gap (p.sequenceNumbers.getD info.deviceNumber 0) info.sequenceNumber := by
  unfold infoOf at h
  split at h
  · unfold receive
    simp only [h,and_self]
  · exact nomatch h

/-- Messages of other devices do not matter. -/
theorem missedOf_eq (device : UInt32) (p : MessageParser) (msgs : List DeviceMessage) :
    missedOf device p (msgs.map DeviceMessage.frames) =
      gapsAfter (p.sequenceNumbers.getD device 0) (numbersOf device (msgs.map DeviceMessage.tracked)) := by
  induction msgs generalizing p with
  | nil => rfl
  | cons msg msgs ih =>
    obtain ⟨info,hinfo,hdevice,hnumber⟩ := infoOf_frames msg
    obtain ⟨hnumbers,hmissed⟩ := receive_of_infoOf hinfo p
    rw [List.map_cons,missedOf,ih,hinfo,hnumbers,hmissed,Option.map_some,hdevice,hnumber,
      UInt64.add_comm,UInt64.add_sub_cancel]
    by_cases hd : msg.tracked.1.deviceNumber = device
    · subst hd
      rw [if_pos rfl]
      simp [numbersOf,gapsAfter]
    · rw [if_neg (by simpa using hd)]
      simp [numbersOf,hd,Std.ExtTreeMap.getD_insert]

/-- A gap is counted with both of its ends. -/
lemma toNat_gap {a b : UInt64} (ha : a ≠ 0) (hab : a < b) :
    (gap a b).toNat = if b.toNat = a.toNat+1 then 0 else b.toNat-a.toNat+1 := by
  have hlt := UInt64.lt_iff_toNat_lt.mp hab
  have hb := b.toNat_lt
  have hone : (1 : UInt64).toNat = 1 := rfl
  have hpos : a.toNat ≠ 0 := fun h => ha (UInt64.toNat_inj.mp h)
  have hsucc : b = a+1 ↔ b.toNat = a.toNat+1 := by
    rw [← UInt64.toNat_inj,UInt64.toNat_add]
    omega
  unfold gap
  by_cases h : b.toNat = a.toNat+1
  · rw [if_neg (fun hc => hc.1 (hsucc.mpr h)),if_pos h]
    rfl
  · rw [if_pos ⟨fun hc => h (hsucc.mp hc),hab,ha⟩,if_neg h,UInt64.toNat_add,UInt64.toNat_sub]
    omega

/-- Either there is no gap, or too much is counted. -/
lemma skipped_lt_gapsAfter {a : UInt64} {rest : List UInt64} (hpos : a ≠ 0)
    (h : (a::rest).Pairwise (· < ·)) :
    skipped ((a::rest).map UInt64.toNat) = 0 ∧ gapsAfter a rest = 0 ∨
      0 < skipped ((a::rest).map UInt64.toNat) ∧
        skipped ((a::rest).map UInt64.toNat) < gapsAfter a rest := by
  induction rest generalizing a with
  | nil => exact .inl ⟨rfl,rfl⟩
  | cons b rest ih =>
    obtain ⟨ha,hrest⟩ := List.pairwise_cons.mp h
    have hab := ha b List.mem_cons_self
    have hlt := UInt64.lt_iff_toNat_lt.mp hab
    have hb : b ≠ 0 := by
      rintro rfl
      exact absurd hlt (Nat.not_lt_zero _)
    have ih := ih hb hrest
    have hgap := toNat_gap hpos hab
    simp only [List.map_cons,skipped,gapsAfter] at ih ⊢
    split at hgap <;> omega

/-- The first number of a device is not compared with any. -/
lemma skipped_lt_gapsAfter_zero {numbers : List UInt64} (hpos : 0 ∉ numbers)
    (h : numbers.Pairwise (· < ·)) :
    skipped (numbers.map UInt64.toNat) = 0 ∧ gapsAfter 0 numbers = 0 ∨
      0 < skipped (numbers.map UInt64.toNat) ∧
        skipped (numbers.map UInt64.toNat) < gapsAfter 0 numbers := by
  cases numbers with
  | nil => exact .inl ⟨rfl,rfl⟩
  | cons a rest =>
    have ha : a ≠ 0 := fun hzero => hpos (hzero ▸ List.mem_cons_self)
    have hfirst : gapsAfter 0 (a::rest) = gapsAfter a rest := by simp [gapsAfter,gap]
    rw [hfirst]
    exact skipped_lt_gapsAfter ha h

/-- The exporter agrees with the messages lost, and with the device tracker, on the streams without
a gap and on no others. -/
theorem missedOf_eq_lost_iff {device : UInt32} {msgs : List DeviceMessage}
    (hpos : 0 ∉ numbersOf device (msgs.map DeviceMessage.tracked))
    (hincreasing : (numbersOf device (msgs.map DeviceMessage.tracked)).Pairwise (· < ·)) :
    let lost := missing ((numbersOf device (msgs.map DeviceMessage.tracked)).map UInt64.toNat)
    (missedOf device new (msgs.map DeviceMessage.frames) = lost.card ↔ lost = ∅) ∧
      (missedOf device new (msgs.map DeviceMessage.frames) =
        totalGap device deviceTrackerNew (msgs.map DeviceMessage.tracked) ↔ lost = ∅) := by
  intro lost
  have htracker := totalGap_le_skipped hincreasing
  have hlost : lost.card = skipped ((numbersOf device (msgs.map DeviceMessage.tracked)).map UInt64.toNat) := by
    apply card_missing
    rw [List.pairwise_map]
    exact hincreasing.imp UInt64.lt_iff_toNat_lt.mp
  have hmissed := missedOf_eq device new msgs
  rw [show new.sequenceNumbers.getD device 0 = 0 by simp [new]] at hmissed
  rw [← Finset.card_eq_zero,hlost,hmissed]
  have hcount := skipped_lt_gapsAfter_zero hpos hincreasing
  omega

/-- A message of device 1. -/
def message (number : UInt64) : DeviceMessage where
  appEnv := lit "app-production"
  routingKey := lit "logs"
  body := lit "\x7b\x7d"
  info := msgAddMetaInfo { metaInfoEmpty with deviceNumber := 1, sequenceNumber := number }
  valid := validMeta_msgAddMetaInfo rfl

theorem missedOf_consecutive :
    missedOf 1 new (([1,2,3].map message).map DeviceMessage.frames) =
      totalGap 1 deviceTrackerNew (([1,2,3].map message).map DeviceMessage.tracked) :=
  (missedOf_eq_lost_iff (by decide +kernel) (by decide +kernel)).2.mpr (by decide +kernel)

/-- One message is lost, as the tracker says, and three are counted. -/
theorem missedOf_second_lost :
    (missing ([1,3])).card = 1 ∧
      totalGap 1 deviceTrackerNew (([1,3].map message).map DeviceMessage.tracked) = 1 ∧
      missedOf 1 new (([1,3].map message).map DeviceMessage.frames) = 3 := by
  decide +kernel

end Exporter
end Logjam
