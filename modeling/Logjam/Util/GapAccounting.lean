import Logjam.Library.Gaps
import Logjam.Util.DeviceTracker

/-! The gaps a receiver finds in the messages of all devices together. The values returned for one
device depend on the numbers of this device only, and add up to the messages it has lost. -/
namespace Logjam
open Logjam.Library.Gaps

/-- What device_tracker_calculate_gap returns for the messages of one device, added up. -/
def totalGap (device : UInt32) : DeviceTracker → List (MsgMeta × Option Bytes) → ℕ
  | _,[] => 0
  | tracker,(m,pubSpec)::rest =>
    let (tracker,gap) := deviceTrackerCalculateGap tracker m pubSpec
    (if m.deviceNumber = device then gap.toNat else 0)+totalGap device tracker rest

/-- The sequence numbers of one device, in the order of reception. -/
def numbersOf (device : UInt32) (msgs : List (MsgMeta × Option Bytes)) : List UInt64 :=
  (msgs.filter fun e => e.1.deviceNumber = device).map fun e => e.1.sequenceNumber

/-- The gaps in the numbers of a device whose last number may be known. -/
def gapsFrom : Option UInt64 → List UInt64 → ℕ
  | _,[] => 0
  | none,current::rest => gapsFrom (some current) rest
  | some previous,current::rest => (sequenceGap previous current).toNat+gapsFrom (some current) rest

/-- Numbers of a stream that are less than half the range of the counter apart. -/
def Near (a b : ℕ) : Prop := a < b+2^63 ∧ b < a+2^63

instance (a b : ℕ) : Decidable (Near a b) := by unfold Near; infer_instance

def lastNumber (tracker : DeviceTracker) (device : UInt32) : Option UInt64 :=
  (tracker.seenDevices[device]?).map DeviceInfo.sequenceNumber

lemma getElem?_seenDevices_insert (tracker : DeviceTracker) (d device : UInt32) (info : DeviceInfo) :
    (tracker.seenDevices.insert d info)[device]? =
      if d = device then some info else tracker.seenDevices[device]? := by
  simp [Std.ExtTreeMap.getElem?_insert]

/-- A message of another device leaves the last number alone. -/
lemma lastNumber_of_ne {tracker : DeviceTracker} {m : MsgMeta} {device : UInt32}
    (h : m.deviceNumber ≠ device) (pubSpec : Option Bytes) :
    lastNumber (deviceTrackerCalculateGap tracker m pubSpec).1 device = lastNumber tracker device := by
  unfold deviceTrackerCalculateGap
  split
  · rfl
  · split <;> simp [lastNumber,getElem?_seenDevices_insert,h]

lemma lastNumber_self {tracker : DeviceTracker} {m : MsgMeta} (h : m.deviceNumber ≠ 0)
    (pubSpec : Option Bytes) :
    lastNumber (deviceTrackerCalculateGap tracker m pubSpec).1 m.deviceNumber = some m.sequenceNumber := by
  unfold deviceTrackerCalculateGap
  rw [if_neg h]
  split <;> simp [lastNumber]

lemma gap_eq {tracker : DeviceTracker} {m : MsgMeta} (h : m.deviceNumber ≠ 0) (pubSpec : Option Bytes) :
    (deviceTrackerCalculateGap tracker m pubSpec).2 =
      ((lastNumber tracker m.deviceNumber).map (sequenceGap · m.sequenceNumber)).getD 0 := by
  unfold deviceTrackerCalculateGap lastNumber
  rw [if_neg h]
  cases tracker.seenDevices[m.deviceNumber]? with
  | none => rfl
  | some info => rfl

/-- Only the numbers of the device itself count. -/
theorem totalGap_eq {device : UInt32} (hd : device ≠ 0) (tracker : DeviceTracker)
    (msgs : List (MsgMeta × Option Bytes)) :
    totalGap device tracker msgs = gapsFrom (lastNumber tracker device) (numbersOf device msgs) := by
  induction msgs generalizing tracker with
  | nil => cases h : lastNumber tracker device <;> simp [totalGap,numbersOf,gapsFrom]
  | cons e msgs ih =>
    obtain ⟨m,pubSpec⟩ := e
    simp only [totalGap,ih]
    by_cases hm : m.deviceNumber = device
    · subst hm
      have hnumbers : numbersOf m.deviceNumber ((m,pubSpec)::msgs) =
          m.sequenceNumber::numbersOf m.deviceNumber msgs := by simp [numbersOf]
      rw [if_pos rfl,lastNumber_self hd,gap_eq hd,hnumbers]
      cases lastNumber tracker m.deviceNumber with
      | none => simp [gapsFrom]
      | some previous => rfl
    · have hnumbers : numbersOf device ((m,pubSpec)::msgs) = numbersOf device msgs := by
        simp [numbersOf,hm]
      rw [if_neg hm,lastNumber_of_ne hm,hnumbers,Nat.zero_add]

/-- The wrapped difference is the true one, and a step that does not go up reads as negative. -/
lemma toNat_sequenceGap {a b : ℕ} (h : Near a b) :
    (sequenceGap (UInt64.ofNat a) (UInt64.ofNat b)).toNat = b-a-1 := by
  obtain ⟨hab,hba⟩ := h
  have hgap : (UInt64.ofNat b-UInt64.ofNat a-1).toNat = (2^64-1+(2^64-a%2^64+b%2^64)%2^64)%2^64 := by
    rw [UInt64.toNat_sub,UInt64.toNat_sub,UInt64.toNat_ofNat',UInt64.toNat_ofNat']
    rfl
  unfold sequenceGap
  dsimp only
  split
  · rename_i hlt
    rw [hgap] at hlt ⊢
    omega
  · rename_i hlt
    rw [hgap] at hlt
    have hle : b ≤ a := by omega
    rw [UInt64.toNat_zero]
    omega

lemma gapsFrom_eq_skipped {a : ℕ} {rest : List ℕ} (h : (a::rest).IsChain Near) :
    gapsFrom (some (UInt64.ofNat a)) (rest.map UInt64.ofNat) = skipped (a::rest) := by
  induction rest generalizing a with
  | nil => rfl
  | cons b rest ih =>
    obtain ⟨hab,hrest⟩ := List.isChain_cons_cons.mp h
    rw [List.map_cons,gapsFrom,toNat_sequenceGap hab,ih hrest,skipped]

lemma gapsFrom_none {numbers : List ℕ} (h : numbers.IsChain Near) :
    gapsFrom none (numbers.map UInt64.ofNat) = skipped numbers := by
  cases numbers with
  | nil => rfl
  | cons a rest => exact gapsFrom_eq_skipped h

/-- Whatever other devices send, the gaps of a device add up to the messages of its stream that were
lost between the first and the last one received. Where the numbers start over, each part is
counted by itself; but a step back by 2^63 or more is read as one forward, past the largest number. -/
theorem totalGap_eq_lost {device : UInt32} (hd : device ≠ 0) {tracker : DeviceTracker}
    (hnew : tracker.seenDevices[device]? = none) {msgs : List (MsgMeta × Option Bytes)}
    {parts : List (List ℕ)} (hnumbers : numbersOf device msgs = parts.flatten.map UInt64.ofNat)
    (hne : ∀ part ∈ parts, part ≠ []) (hincreasing : ∀ part ∈ parts, part.Pairwise (· < ·))
    (hnear : parts.flatten.IsChain Near) (hrestart : parts.IsChain StartsOver) :
    totalGap device tracker msgs = (parts.map fun part => (missing part).card).sum := by
  have hlast : lastNumber tracker device = none := by rw [lastNumber,hnew]; rfl
  rw [totalGap_eq hd,hlast,hnumbers,gapsFrom_none hnear,skipped_flatten hne hrestart]
  congr 1
  exact List.map_congr_left fun part hpart => (card_missing (hincreasing part hpart)).symm

/-- A message that carries no more than its origin. -/
def numbered (device : UInt32) (number : UInt64) : MsgMeta × Option Bytes :=
  ({ metaInfoEmpty with deviceNumber := device, sequenceNumber := number },none)

/-- Two devices in turn. The first one loses messages while its counter wraps around, starts over
and loses two more. -/
def interleaved : List (MsgMeta × Option Bytes) :=
  [numbered 1 (2^64-1),numbered 2 7,numbered 1 2,numbered 2 9,numbered 1 1,numbered 1 4]

theorem totalGap_interleaved :
    totalGap 1 deviceTrackerNew interleaved =
      ([[2^64-1,2^64+2],[2^64+1,2^64+4]].map fun part => (missing part).card).sum := by
  refine totalGap_eq_lost (by decide) rfl (by decide +kernel) (by decide) (by decide) (by decide) ?_
  simp [StartsOver]

/-- A device without a number is not tracked. -/
lemma totalGap_zero (tracker : DeviceTracker) (msgs : List (MsgMeta × Option Bytes)) :
    totalGap 0 tracker msgs = 0 := by
  induction msgs generalizing tracker with
  | nil => rfl
  | cons e msgs ih =>
    obtain ⟨m,pubSpec⟩ := e
    simp only [totalGap,ih,Nat.add_zero]
    split
    · rename_i hm
      rw [deviceTrackerCalculateGap,if_pos hm]
      rfl
    · rfl

lemma toNat_sequenceGap_le {a b : UInt64} (h : a < b) :
    (sequenceGap a b).toNat ≤ b.toNat-a.toNat-1 := by
  have hlt := UInt64.lt_iff_toNat_lt.mp h
  have hgap : (b-a-1).toNat = b.toNat-a.toNat-1 := by
    rw [UInt64.toNat_sub,UInt64.toNat_sub]
    have hb := b.toNat_lt
    have hone : (1 : UInt64).toNat = 1 := rfl
    omega
  unfold sequenceGap
  dsimp only
  split
  · exact hgap.le
  · exact Nat.zero_le _

/-- Steps of any size: a step of half the range or more is taken for a step back. -/
lemma gapsFrom_le_skipped {a : UInt64} {rest : List UInt64} (h : (a::rest).Pairwise (· < ·)) :
    gapsFrom (some a) rest ≤ skipped ((a::rest).map UInt64.toNat) := by
  induction rest generalizing a with
  | nil => exact Nat.zero_le _
  | cons b rest ih =>
    obtain ⟨ha,hrest⟩ := List.pairwise_cons.mp h
    exact Nat.add_le_add (toNat_sequenceGap_le (ha b List.mem_cons_self)) (ih hrest)

lemma totalGap_le_skipped {device : UInt32} {msgs : List (MsgMeta × Option Bytes)}
    (h : (numbersOf device msgs).Pairwise (· < ·)) :
    totalGap device deviceTrackerNew msgs ≤ skipped ((numbersOf device msgs).map UInt64.toNat) := by
  rcases eq_or_ne device 0 with rfl | hd
  · rw [totalGap_zero]
    exact Nat.zero_le _
  · rw [totalGap_eq hd,show lastNumber deviceTrackerNew device = none by rw [lastNumber]; rfl]
    cases hn : numbersOf device msgs with
    | nil => exact Nat.zero_le _
    | cons a rest => exact gapsFrom_le_skipped (hn ▸ h)

end Logjam
