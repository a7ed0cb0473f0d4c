import Logjam.Util.MetaInfo

/-! Gaps in the sequence numbers of the devices a receiver has seen. -/
namespace Logjam

def initialHeartbeatCredit : ℤ := 6

structure DeviceInfo where
  sequenceNumber : UInt64
  lost : UInt64
  credit : ℤ
  pubSpec : Option Bytes
  deriving DecidableEq

structure DeviceTracker where
  seenDevices : Std.ExtTreeMap UInt32 DeviceInfo compare

def deviceTrackerNew : DeviceTracker := ⟨∅⟩

/-- The number of messages between two sequence numbers; a number that goes back, read as a signed
difference, counts as no gap. -/
def sequenceGap (previous current : UInt64) : UInt64 :=
  let gap := current-previous-1
  if gap.toNat < 2^63 then gap else 0

def deviceTrackerCalculateGap (tracker : DeviceTracker) (m : MsgMeta) (pubSpec : Option Bytes) :
    DeviceTracker × UInt64 :=
  if m.deviceNumber = 0 then (tracker,0) else
  match tracker.seenDevices[m.deviceNumber]? with
  | none =>
    (⟨tracker.seenDevices.insert m.deviceNumber ⟨m.sequenceNumber,0,initialHeartbeatCredit,pubSpec⟩⟩,0)
  | some info =>
    let gap := sequenceGap info.sequenceNumber m.sequenceNumber
    -- a data message keeps the connection that the last heartbeat has named
    let info := ⟨m.sequenceNumber,info.lost+gap,initialHeartbeatCredit,pubSpec.or info.pubSpec⟩
    (⟨tracker.seenDevices.insert m.deviceNumber info⟩,gap)

/-- A device without credit is stale once its connection is known; the others lose a credit. -/
def DeviceInfo.checked (info : DeviceInfo) : Option DeviceInfo :=
  if info.credit ≤ 0 ∧ info.pubSpec.isSome then none else some { info with credit := info.credit-1 }

/-- The devices left after the check. -/
def deviceTrackerReconnectStaleDevices (tracker : DeviceTracker) : DeviceTracker :=
  ⟨tracker.seenDevices.filterMap fun _ info => info.checked⟩

end Logjam
