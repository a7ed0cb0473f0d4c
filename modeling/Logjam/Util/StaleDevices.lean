import Logjam.Library.Ensures
import Logjam.Library.Run
import Logjam.Util.GapAccounting

/-! Connections to devices that have been silent for too long. They are renewed by disconnecting and connecting
again, which needs the name under which the device is known. -/
namespace Logjam
open Logjam.Library

abbrev DeviceTable := Std.ExtTreeMap UInt32 DeviceInfo compare

/-- What device_tracker_new keeps of the list of devices. -/
structure KnownDevices where
  specs : Std.ExtTreeSet Bytes compare
  localhostSpec : Option Bytes

def namesLocalhost (spec : Bytes) : Bool :=
  (strstr spec (lit "localhost")).isSome || (strstr spec (lit "127.0.0.1")).isSome || (strstr spec (lit "::1")).isSome

/-- The loop body of device_tracker_new. -/
def addKnownDevice (known : KnownDevices) (spec : Bytes) : KnownDevices where
  specs := known.specs.insert spec
  localhostSpec := if namesLocalhost spec then some spec else known.localhostSpec

def knownDevicesNew (specs : List Bytes) : KnownDevices := specs.foldl addKnownDevice ⟨∅,none⟩

/-- The order in which the table of the devices is traversed. -/
structure DeviceOrder where
  order : DeviceTable → List (UInt32 × DeviceInfo)
  perm : ∀ table,(order table).Perm table.toList

def DeviceOrder.ascending : DeviceOrder := ⟨fun table => table.toList,fun _ => .rfl⟩

/-- A device without credit whose connection is known. -/
structure StaleDevice where
  deviceNumber : UInt32
  pubSpec : Bytes

inductive Reconnect
  | disconnect (spec : Bytes)
  | connect (spec : Bytes)
  | unknownDevice (deviceNumber : UInt32)
  deriving DecidableEq

/-- The credit is compared before it is decremented. -/
def staleDevice (e : UInt32 × DeviceInfo) : Option StaleDevice :=
  if e.2.credit ≤ 0 then e.2.pubSpec.map fun spec => ⟨e.1,spec⟩ else none

/-- The first loop of device_tracker_reconnect_stale_devices. -/
def staleDevices (loop : DeviceOrder) (tracker : DeviceTracker) : List StaleDevice :=
  (loop.order tracker.seenDevices).filterMap staleDevice

def takeCredits (table : DeviceTable) : DeviceTable := table.map fun _ info => { info with credit := info.credit-1 }

/-- The name of the connection to a device, which may be NULL for a device on the own host. -/
def connectionSpec (known : KnownDevices) (myHostname pubSpec : Bytes) : Option Bytes :=
  if (strstr pubSpec myHostname).isSome then known.localhostSpec else some pubSpec

/-- The second loop. Without a key zhash_lookup aborts. -/
def reconnectDevices (known : KnownDevices) (myHostname : Bytes) :
    List StaleDevice → DeviceTable → Except Fault (DeviceTable × List Reconnect)
  | [],table => .ok (table,[])
  | info::rest,table =>
    match connectionSpec known myHostname info.pubSpec with
    | none => .error .nullString
    | some spec => do
      let actions := if known.specs.contains spec then [.disconnect spec,.connect spec] else [.unknownDevice info.deviceNumber]
      let (table,later) ← reconnectDevices known myHostname rest (table.erase info.deviceNumber)
      return (table,actions ++ later)

/-- The function device_tracker_reconnect_stale_devices with what it does to the socket. -/
def reconnectStaleDevices (loop : DeviceOrder) (known : KnownDevices) (myHostname : Bytes) (tracker : DeviceTracker) :
    Except Fault (DeviceTracker × List Reconnect) := do
  let (table,actions) ← reconnectDevices known myHostname (staleDevices loop tracker) (takeCredits tracker.seenDevices)
  return (⟨table⟩,actions)

/-- What should happen to the connection of a stale device: it is renewed under the name that is known, and a
device without such a name is reported. -/
def renewal (known : KnownDevices) (myHostname : Bytes) (info : StaleDevice) : List Reconnect :=
  match (connectionSpec known myHostname info.pubSpec).filter known.specs.contains with
  | some spec => [.disconnect spec,.connect spec]
  | none => [.unknownDevice info.deviceNumber]

variable {loop : DeviceOrder} {known : KnownDevices} {specs : List Bytes} {myHostname spec : Bytes} {tracker : DeviceTracker}
  {table : DeviceTable} {device : UInt32} {info : DeviceInfo} {stale : List StaleDevice}

/-! Known devices. -/

lemma mem_knownDevicesNew : spec ∈ (knownDevicesNew specs).specs ↔ spec ∈ specs := by
  induction specs using List.reverseRecOn with
  | nil => simp [knownDevicesNew]
  | append_singleton specs last ih =>
    rw [knownDevicesNew,List.foldl_concat,← knownDevicesNew,addKnownDevice,Std.ExtTreeSet.mem_insert,Std.compare_eq_iff_eq,ih,
      List.mem_append,List.mem_singleton,or_comm,eq_comm]

lemma localhostSpec_knownDevicesNew (specs : List Bytes) :
    (knownDevicesNew specs).localhostSpec = specs.reverse.find? namesLocalhost := by
  induction specs using List.reverseRecOn with
  | nil => rfl
  | append_singleton specs last ih =>
    rw [knownDevicesNew,List.foldl_concat,← knownDevicesNew,addKnownDevice,List.reverse_concat,List.find?_cons,ih]
    cases namesLocalhost last <;> rfl

/-- There is a connection to the own host if one of the devices is called so. -/
lemma isSome_localhostSpec_iff : (knownDevicesNew specs).localhostSpec.isSome ↔ ∃ s ∈ specs,namesLocalhost s := by
  rw [localhostSpec_knownDevicesNew,List.find?_isSome]
  simp only [List.mem_reverse]

lemma isSome_connectionSpec_iff :
    (connectionSpec (knownDevicesNew specs) myHostname spec).isSome ↔
      ((strstr spec myHostname).isSome → ∃ s ∈ specs,namesLocalhost s) := by
  rw [connectionSpec]
  split_ifs with hown
  · rw [isSome_localhostSpec_iff,forall_prop_of_true hown]
  · simp [hown]

/-! The check. -/

lemma mem_staleDevices {e : StaleDevice} :
    e ∈ staleDevices loop tracker ↔
      ∃ info,tracker.seenDevices[e.deviceNumber]? = some info ∧ info.credit ≤ 0 ∧ info.pubSpec = some e.pubSpec := by
  rw [staleDevices,List.mem_filterMap]
  constructor
  · rintro ⟨⟨device,info⟩,hmem,hstale⟩
    rw [staleDevice] at hstale
    split_ifs at hstale with hcredit
    obtain ⟨spec,hspec,rfl⟩ := Option.map_eq_some_iff.mp hstale
    exact ⟨info,Std.ExtTreeMap.mem_toList_iff_getElem?_eq_some.mp ((loop.perm _).mem_iff.mp hmem),hcredit,hspec⟩
  · rintro ⟨info,hinfo,hcredit,hspec⟩
    refine ⟨(e.deviceNumber,info),(loop.perm _).mem_iff.mpr (Std.ExtTreeMap.mem_toList_iff_getElem?_eq_some.mpr hinfo),?_⟩
    rw [staleDevice,if_pos hcredit,hspec]
    rfl

lemma getElem?_reconnectStaleDevices (tracker : DeviceTracker) (device : UInt32) :
    (deviceTrackerReconnectStaleDevices tracker).seenDevices[device]? = tracker.seenDevices[device]?.bind DeviceInfo.checked := by
  rw [deviceTrackerReconnectStaleDevices,Std.ExtTreeMap.getElem?_filterMap,Option.pbind_eq_bind]

lemma reconnectDevices_cons {e : StaleDevice} (h : connectionSpec known myHostname e.pubSpec = some spec) :
    reconnectDevices known myHostname (e::stale) table =
      (reconnectDevices known myHostname stale (table.erase e.deviceNumber)).map
        fun result => (result.1,renewal known myHostname e ++ result.2) := by
  have hrenewal : renewal known myHostname e =
      if known.specs.contains spec then [.disconnect spec,.connect spec] else [.unknownDevice e.deviceNumber] := by
    rw [renewal,h,Option.filter_some]
    split_ifs <;> rfl
  rw [reconnectDevices,h,hrenewal]
  rfl

/-- Every connection is renewed if each of them has a name. -/
lemma reconnectDevices_of_forall (h : ∀ e ∈ stale,(connectionSpec known myHostname e.pubSpec).isSome) :
    reconnectDevices known myHostname stale table =
      .ok (stale.foldl (fun table e => table.erase e.deviceNumber) table,stale.flatMap (renewal known myHostname)) := by
  induction stale generalizing table with
  | nil => rfl
  | cons e stale ih =>
    obtain ⟨he,hstale⟩ := List.forall_mem_cons.mp h
    obtain ⟨spec,hspec⟩ := Option.isSome_iff_exists.mp he
    rw [reconnectDevices_cons hspec,ih hstale]
    rfl

lemma reconnectDevices_of_mem {e : StaleDevice} (he : e ∈ stale) (h : connectionSpec known myHostname e.pubSpec = none) :
    reconnectDevices known myHostname stale table = .error .nullString := by
  induction stale generalizing table with
  | nil => cases he
  | cons first stale ih =>
    cases hfirst : connectionSpec known myHostname first.pubSpec with
    | none => rw [reconnectDevices,hfirst]
    | some spec =>
      rcases List.mem_cons.mp he with rfl | he
      · rw [hfirst] at h
        cases h
      · rw [reconnectDevices_cons hfirst,ih he]
        rfl

lemma getElem?_foldl_erase :
    (stale.foldl (fun table e => table.erase e.deviceNumber) table)[device]? =
      if ∃ e ∈ stale,e.deviceNumber = device then none else table[device]? := by
  induction stale generalizing table with
  | nil => simp
  | cons e stale ih =>
    simp only [List.foldl_cons,ih,Std.ExtTreeMap.getElem?_erase,Std.compare_eq_iff_eq,List.exists_mem_cons_iff]
    by_cases hdevice : e.deviceNumber = device
    · simp only [hdevice,if_true,ite_self,true_or]
    · simp only [hdevice,if_false,false_or]

/-- The check removes the stale devices and takes a credit from the others. -/
lemma foldl_erase_takeCredits (loop : DeviceOrder) (tracker : DeviceTracker) :
    (staleDevices loop tracker).foldl (fun table e => table.erase e.deviceNumber) (takeCredits tracker.seenDevices) =
      (deviceTrackerReconnectStaleDevices tracker).seenDevices := by
  refine Std.ExtTreeMap.ext_getElem? fun device => ?_
  rw [getElem?_foldl_erase,getElem?_reconnectStaleDevices,takeCredits,Std.ExtTreeMap.getElem?_map]
  cases hinfo : tracker.seenDevices[device]? with
  | none => simp
  | some info =>
    have hstale : (∃ e ∈ staleDevices loop tracker,e.deviceNumber = device) ↔ info.credit ≤ 0 ∧ info.pubSpec.isSome := by
      simp only [mem_staleDevices]
      constructor
      · rintro ⟨e,⟨info',hinfo',hcredit,hspec⟩,rfl⟩
        obtain rfl := Option.some.inj (hinfo.symm.trans hinfo')
        exact ⟨hcredit,Option.isSome_of_eq_some hspec⟩
      · rintro ⟨hcredit,hspec⟩
        exact ⟨⟨device,info.pubSpec.get hspec⟩,⟨info,hinfo,hcredit,(Option.some_get hspec).symm⟩,rfl⟩
    rw [Option.bind_some,DeviceInfo.checked,if_congr hstale rfl rfl,Option.map_some]

lemma reconnectStaleDevices_of_forall (h : ∀ e ∈ staleDevices loop tracker,(connectionSpec known myHostname e.pubSpec).isSome) :
    reconnectStaleDevices loop known myHostname tracker =
      .ok (deviceTrackerReconnectStaleDevices tracker,(staleDevices loop tracker).flatMap (renewal known myHostname)) := by
  rw [reconnectStaleDevices,reconnectDevices_of_forall h,foldl_erase_takeCredits]
  rfl

lemma reconnectStaleDevices_of_mem {e : StaleDevice} (he : e ∈ staleDevices loop tracker)
    (h : connectionSpec known myHostname e.pubSpec = none) :
    reconnectStaleDevices loop known myHostname tracker = .error .nullString := by
  rw [reconnectStaleDevices,reconnectDevices_of_mem he h]
  rfl

/-- The check comes to its end if all stale devices have a name. -/
lemma exists_reconnectStaleDevices_iff :
    (∃ next actions,reconnectStaleDevices loop known myHostname tracker = .ok (next,actions)) ↔
      ∀ e ∈ staleDevices loop tracker,(connectionSpec known myHostname e.pubSpec).isSome := by
  refine ⟨fun ⟨next,actions,hnext⟩ e he => ?_,fun h => ⟨_,_,reconnectStaleDevices_of_forall h⟩⟩
  by_contra hspec
  rw [reconnectStaleDevices_of_mem he (Option.not_isSome_iff_eq_none.mp hspec)] at hnext
  cases hnext

/-! Endpoints. -/

/-- If a stale device is on the own host, then a name for the own host is configured. -/
def LocalhostNamed (specs : List Bytes) (myHostname : Bytes) (tracker : DeviceTracker) : Prop :=
  ∀ (device : UInt32) (info : DeviceInfo) (spec : Bytes),tracker.seenDevices[device]? = some info → info.credit ≤ 0 → info.pubSpec = some spec →
    (strstr spec myHostname).isSome → ∃ s ∈ specs,namesLocalhost s

lemma forall_isSome_connectionSpec_iff (loop : DeviceOrder) :
    (∀ e ∈ staleDevices loop tracker,(connectionSpec (knownDevicesNew specs) myHostname e.pubSpec).isSome) ↔
      LocalhostNamed specs myHostname tracker := by
  simp only [mem_staleDevices,isSome_connectionSpec_iff]
  constructor
  · intro h device info spec hinfo hcredit hspec
    exact h ⟨device,spec⟩ ⟨info,hinfo,hcredit,hspec⟩
  · rintro h e ⟨info,hinfo,hcredit,hspec⟩
    exact h e.deviceNumber info e.pubSpec hinfo hcredit hspec

lemma mem_specs_of_mem_renewal {e : StaleDevice}
    (h : .disconnect spec ∈ renewal (knownDevicesNew specs) myHostname e ∨
      .connect spec ∈ renewal (knownDevicesNew specs) myHostname e) : spec ∈ specs := by
  rw [renewal] at h
  split at h
  · next known hknown =>
    have hmem := (Option.filter_eq_some_iff.mp hknown).2
    have hspec : spec = known := by simpa using h
    rw [hspec,← mem_knownDevicesNew,Std.ExtTreeSet.mem_iff_contains]
    exact hmem
  · simp at h

theorem reconnectStaleDevices_endpoints_iff (loop : DeviceOrder) (specs : List Bytes) (myHostname : Bytes) (tracker : DeviceTracker) :
    (∃ next actions,reconnectStaleDevices loop (knownDevicesNew specs) myHostname tracker = .ok (next,actions) ∧
      actions = (staleDevices loop tracker).flatMap (renewal (knownDevicesNew specs) myHostname) ∧
      ∀ spec,.disconnect spec ∈ actions ∨ .connect spec ∈ actions → spec ∈ specs) ↔
      LocalhostNamed specs myHostname tracker := by
  rw [← forall_isSome_connectionSpec_iff loop]
  constructor
  · rintro ⟨next,actions,hnext,-⟩
    exact exists_reconnectStaleDevices_iff.mp ⟨next,actions,hnext⟩
  · intro h
    refine ⟨_,_,reconnectStaleDevices_of_forall h,rfl,fun spec hspec => ?_⟩
    rw [List.mem_flatMap,List.mem_flatMap,← exists_or] at hspec
    obtain ⟨e,hspec⟩ := hspec
    exact mem_specs_of_mem_renewal (hspec.imp And.right And.right)

/-- The only device that is known, on the host of the receiver. -/
def ownDevice : Bytes := lit "tcp://importer.local:9604"

/-- What is left of a heartbeat of that device after some checks. -/
def ownDeviceTracker (checks : ℕ) : DeviceTracker :=
  ⟨(∅ : DeviceTable).insert 1 ⟨7,0,initialHeartbeatCredit-checks,some ownDevice⟩⟩

lemma connectionSpec_ownDevice : connectionSpec (knownDevicesNew [ownDevice]) (lit "importer.local") ownDevice = none := by
  decide +kernel

lemma mem_staleDevices_ownDevice {checks : ℕ} :
    ⟨1,ownDevice⟩ ∈ staleDevices loop (ownDeviceTracker checks) ↔ 6 ≤ checks := by
  rw [mem_staleDevices,ownDeviceTracker]
  simp [initialHeartbeatCredit]

theorem reconnectStaleDevices_own_host :
    reconnectStaleDevices .ascending (knownDevicesNew [ownDevice]) (lit "importer.local") (ownDeviceTracker 6) =
      .error .nullString :=
  reconnectStaleDevices_of_mem (mem_staleDevices_ownDevice.mpr le_rfl) connectionSpec_ownDevice

/-! Silence. -/

inductive TrackerEvent
  | message (m : MsgMeta) (pubSpec : Option Bytes)
  | check (loop : DeviceOrder)

def trackerStep (known : KnownDevices) (myHostname : Bytes) (tracker : DeviceTracker) :
    TrackerEvent → Except Fault (DeviceTracker × List Reconnect)
  | .message m pubSpec => .ok ((deviceTrackerCalculateGap tracker m pubSpec).1,[])
  | .check loop => reconnectStaleDevices loop known myHostname tracker

/-- Any interleaving of messages and checks. -/
def TrackerRun (specs : List Bytes) (myHostname : Bytes) :
    List TrackerEvent → DeviceTracker → List Reconnect → Prop :=
  Run (trackerStep (knownDevicesNew specs) myHostname) (fun _ _ => True) deviceTrackerNew

def TrackerEvent.isCheck : TrackerEvent → Bool
  | .message _ _ => false
  | .check _ => true

/-- A message of the device is counted. -/
def TrackerEvent.counts (device : UInt32) : TrackerEvent → Bool
  | .message m _ => m.deviceNumber != 0 && m.deviceNumber == device
  | .check _ => false

/-- No message of the device was counted during the last checks. -/
def Silent (device : UInt32) (checks : ℤ) (events : List TrackerEvent) : Prop :=
  ∃ before after,events = before ++ after ∧ checks ≤ after.countP TrackerEvent.isCheck ∧ ∀ e ∈ after,e.counts device = false

/-- The number of checks since the last message of the device. -/
def silence (device : UInt32) (events : List TrackerEvent) : ℕ :=
  events.foldl (fun checks e => if e.counts device then 0 else if e.isCheck then checks+1 else checks) 0

lemma silence_concat (device : UInt32) (events : List TrackerEvent) (e : TrackerEvent) :
    silence device (events ++ [e]) =
      if e.counts device then 0 else if e.isCheck then silence device events+1 else silence device events := by
  rw [silence,List.foldl_concat,silence]

lemma silent_of_le {checks : ℤ} (h : checks ≤ 0) (events : List TrackerEvent) : Silent device checks events :=
  ⟨events,[],(List.append_nil events).symm,h,List.forall_mem_nil _⟩

lemma silent_concat_iff {checks : ℤ} {events : List TrackerEvent} {e : TrackerEvent} :
    Silent device checks (events ++ [e]) ↔
      checks ≤ 0 ∨ e.counts device = false ∧ Silent device (checks-if e.isCheck then 1 else 0) events := by
  constructor
  · rintro ⟨before,after,heq,hchecks,hafter⟩
    rcases List.eq_nil_or_concat' after with rfl | ⟨after,last,rfl⟩
    · exact .inl hchecks
    · rw [← List.append_assoc] at heq
      obtain ⟨rfl,hlast⟩ := List.append_inj' heq rfl
      obtain rfl := List.singleton_inj.mp hlast
      obtain ⟨hafter,he⟩ := List.forall_mem_append.mp hafter
      rw [List.countP_append,List.countP_singleton] at hchecks
      refine .inr ⟨he e (List.mem_singleton_self e),before,after,rfl,?_,hafter⟩
      split_ifs at hchecks ⊢ <;> push_cast at hchecks <;> omega
  · rintro (hchecks | ⟨he,before,after,rfl,hchecks,hafter⟩)
    · exact silent_of_le hchecks _
    · refine ⟨before,after ++ [e],List.append_assoc before after [e],?_,List.forall_mem_append.mpr ⟨hafter,by simpa using he⟩⟩
      rw [List.countP_append,List.countP_singleton]
      split_ifs at hchecks ⊢ <;> push_cast <;> omega

lemma silent_iff {checks : ℤ} {events : List TrackerEvent} : Silent device checks events ↔ checks ≤ silence device events := by
  induction events using List.reverseRecOn generalizing checks with
  | nil =>
    refine ⟨?_,fun h => silent_of_le h []⟩
    rintro ⟨before,after,heq,hchecks,-⟩
    obtain ⟨-,rfl⟩ := List.append_eq_nil_iff.mp heq.symm
    exact hchecks
  | append_singleton events e ih =>
    rw [silent_concat_iff,ih,silence_concat]
    cases e.counts device with
    | true => simp
    | false =>
      simp only [true_and,Bool.false_eq_true,if_false]
      split_ifs <;> push_cast <;> omega

/-- What a check should do, given all that has happened before. -/
structure RemovesSilent (events : List TrackerEvent) (tracker next : DeviceTracker) : Prop where
  removed_iff : ∀ (device : UInt32) (info : DeviceInfo),tracker.seenDevices[device]? = some info →
    (next.seenDevices[device]? = none ↔ Silent device initialHeartbeatCredit events ∧ info.pubSpec.isSome)
  kept : ∀ (device : UInt32) (info : DeviceInfo),next.seenDevices[device]? = some info →
    ∃ before,tracker.seenDevices[device]? = some before ∧ info.sequenceNumber = before.sequenceNumber ∧
      info.lost = before.lost ∧ info.pubSpec = before.pubSpec

/-- The credit of a device counts the checks in which it was silent. -/
def CreditsLeft (events : List TrackerEvent) (tracker : DeviceTracker) : Prop :=
  ∀ (device : UInt32) (info : DeviceInfo),tracker.seenDevices[device]? = some info →
    info.credit = initialHeartbeatCredit-silence device events

/-- A message gives the device its full credit back, and leaves the others as they are. -/
lemma calculateGap_cases {m : MsgMeta} {pubSpec : Option Bytes}
    (h : (deviceTrackerCalculateGap tracker m pubSpec).1.seenDevices[device]? = some info) :
    (TrackerEvent.message m pubSpec).counts device = true ∧ info.credit = initialHeartbeatCredit ∨
      (TrackerEvent.message m pubSpec).counts device = false ∧ tracker.seenDevices[device]? = some info := by
  rw [deviceTrackerCalculateGap] at h
  split_ifs at h with hzero
  · exact .inr ⟨by simp [TrackerEvent.counts,hzero],h⟩
  · split at h <;>
    · rw [getElem?_seenDevices_insert] at h
      split_ifs at h with hdevice
      · exact .inl ⟨by simp [TrackerEvent.counts,← hdevice,hzero],by rw [← Option.some.inj h]⟩
      · exact .inr ⟨by simp [TrackerEvent.counts,hdevice],h⟩

lemma checked_eq_some_iff {next : DeviceInfo} :
    info.checked = some next ↔ ¬(info.credit ≤ 0 ∧ info.pubSpec.isSome) ∧ { info with credit := info.credit-1 } = next := by
  rw [DeviceInfo.checked]
  split_ifs with h
  · simp [h]
  · rw [Option.some_inj,iff_true_intro h,true_and]

/-- A check that comes to its end leaves the devices with credit or without a known connection. -/
lemma reconnectStaleDevices_next {next : DeviceTracker} {actions : List Reconnect}
    (h : reconnectStaleDevices loop known myHostname tracker = .ok (next,actions)) :
    next = deviceTrackerReconnectStaleDevices tracker := by
  rw [reconnectStaleDevices_of_forall (exists_reconnectStaleDevices_iff.mp ⟨next,actions,h⟩)] at h
  exact (Prod.mk.inj (Except.ok.inj h)).1.symm

lemma getElem?_reconnectStaleDevices_eq_some_iff {next : DeviceInfo} :
    (deviceTrackerReconnectStaleDevices tracker).seenDevices[device]? = some next ↔
      ∃ info,tracker.seenDevices[device]? = some info ∧ ¬(info.credit ≤ 0 ∧ info.pubSpec.isSome) ∧
        { info with credit := info.credit-1 } = next := by
  rw [getElem?_reconnectStaleDevices,Option.bind_eq_some_iff]
  simp only [checked_eq_some_iff]

lemma creditsLeft {events : List TrackerEvent} {trace : List Reconnect} (h : TrackerRun specs myHostname events tracker trace) :
    CreditsLeft events tracker := by
  refine Run.invariant (P := fun events tracker _ => CreditsLeft events tracker) ?_ ?_ h
  · intro device info hinfo
    rw [deviceTrackerNew,Std.ExtTreeMap.getElem?_empty] at hinfo
    cases hinfo
  · intro events tracker _ event next _ hcredits _ hstep device info hinfo
    rw [silence_concat]
    cases event with
    | message m pubSpec =>
      obtain ⟨rfl,-⟩ := Prod.mk.inj (Except.ok.inj hstep)
      rcases calculateGap_cases hinfo with ⟨hcounts,hcredit⟩ | ⟨hcounts,hinfo⟩
      · rw [if_pos hcounts,hcredit,Nat.cast_zero,sub_zero]
      · rw [hcounts]
        exact hcredits device info hinfo
    | check loop =>
      rw [reconnectStaleDevices_next hstep,getElem?_reconnectStaleDevices_eq_some_iff] at hinfo
      obtain ⟨before,hbefore,-,rfl⟩ := hinfo
      have hcredit := hcredits device before hbefore
      change before.credit-1 = initialHeartbeatCredit-((silence device events+1 : ℕ) : ℤ)
      push_cast
      omega

lemma CreditsLeft.silent_iff {events : List TrackerEvent} (h : CreditsLeft events tracker)
    (hinfo : tracker.seenDevices[device]? = some info) :
    Silent device initialHeartbeatCredit events ↔ info.credit ≤ 0 := by
  rw [Logjam.silent_iff,h device info hinfo]
  omega

/-- The check removes a device when it has been silent for too long. -/
lemma removesSilent {events : List TrackerEvent} (h : CreditsLeft events tracker) :
    RemovesSilent events tracker (deviceTrackerReconnectStaleDevices tracker) := by
  constructor
  · intro device info hinfo
    rw [getElem?_reconnectStaleDevices,hinfo,Option.bind_some,h.silent_iff hinfo,DeviceInfo.checked]
    by_cases hstale : info.credit ≤ 0 ∧ info.pubSpec.isSome
    · rw [if_pos hstale]
      exact iff_of_true rfl hstale
    · rw [if_neg hstale]
      exact iff_of_false (Option.some_ne_none _) hstale
  · intro device info hinfo
    obtain ⟨before,hbefore,-,rfl⟩ := getElem?_reconnectStaleDevices_eq_some_iff.mp hinfo
    exact ⟨before,hbefore,rfl,rfl,rfl⟩

/-- The check after any run removes the silent devices and no others, unless it aborts. -/
theorem reconnectStaleDevices_silent_iff {events : List TrackerEvent} {trace : List Reconnect}
    (h : TrackerRun specs myHostname events tracker trace) (loop : DeviceOrder) :
    (∃ next actions,reconnectStaleDevices loop (knownDevicesNew specs) myHostname tracker = .ok (next,actions) ∧
      RemovesSilent events tracker next) ↔
      ∀ (device : UInt32) (info : DeviceInfo) (spec : Bytes),tracker.seenDevices[device]? = some info →
        Silent device initialHeartbeatCredit events → info.pubSpec = some spec → (strstr spec myHostname).isSome →
          ∃ s ∈ specs,namesLocalhost s := by
  have hcredits := creditsLeft h
  have hnamed : LocalhostNamed specs myHostname tracker ↔
      ∀ (device : UInt32) (info : DeviceInfo) (spec : Bytes),tracker.seenDevices[device]? = some info →
        Silent device initialHeartbeatCredit events → info.pubSpec = some spec → (strstr spec myHostname).isSome →
          ∃ s ∈ specs,namesLocalhost s := by
    refine forall₄_congr fun device info spec hinfo => ?_
    rw [hcredits.silent_iff hinfo]
  rw [← hnamed,← forall_isSome_connectionSpec_iff loop,← exists_reconnectStaleDevices_iff]
  constructor
  · rintro ⟨next,actions,hnext,-⟩
    exact ⟨next,actions,hnext⟩
  · rintro ⟨next,actions,hnext⟩
    exact ⟨next,actions,hnext,reconnectStaleDevices_next hnext ▸ removesSilent hcredits⟩

/-- A heartbeat of the device on the own host, and nothing but checks after it. -/
def silentEvents (checks : ℕ) : List TrackerEvent :=
  .message { metaInfoEmpty with deviceNumber := 1, sequenceNumber := 7 } (some ownDevice)::List.replicate checks (.check .ascending)

lemma getElem?_ownDeviceTracker (checks : ℕ) (device : UInt32) :
    (ownDeviceTracker checks).seenDevices[device]? =
      if 1 = device then some ⟨7,0,initialHeartbeatCredit-checks,some ownDevice⟩ else none := by
  rw [ownDeviceTracker,getElem?_seenDevices_insert ⟨∅⟩,Std.ExtTreeMap.getElem?_empty]

/-- A check takes a credit from the device as long as it has some. -/
lemma reconnectStaleDevices_ownDeviceTracker (loop : DeviceOrder) {checks : ℕ} (h : checks < 6) :
    reconnectStaleDevices loop known myHostname (ownDeviceTracker checks) = .ok (ownDeviceTracker (checks+1),[]) := by
  have hcredit : ¬initialHeartbeatCredit-checks ≤ 0 := by
    rw [initialHeartbeatCredit]
    omega
  have hstale : staleDevices loop (ownDeviceTracker checks) = [] := by
    refine List.eq_nil_iff_forall_not_mem.mpr fun e he => ?_
    obtain ⟨info,hinfo,hcredit',-⟩ := mem_staleDevices.mp he
    rw [getElem?_ownDeviceTracker] at hinfo
    split_ifs at hinfo
    obtain rfl := Option.some.inj hinfo
    exact hcredit hcredit'
  have hnext : deviceTrackerReconnectStaleDevices (ownDeviceTracker checks) = ownDeviceTracker (checks+1) := by
    refine congrArg DeviceTracker.mk (Std.ExtTreeMap.ext_getElem? fun device => ?_)
    refine (getElem?_reconnectStaleDevices _ device).trans (Eq.trans ?_ (getElem?_ownDeviceTracker (checks+1) device).symm)
    rw [getElem?_ownDeviceTracker]
    split_ifs
    · rw [Option.bind_some,DeviceInfo.checked,if_neg fun hstale => hcredit hstale.1]
      push_cast
      rw [sub_sub]
    · rfl
  rw [reconnectStaleDevices_of_forall (by rw [hstale]; exact List.forall_mem_nil _),hstale,hnext]
  rfl

/-- The credit of the device is used up by six checks. -/
lemma trackerRun_silentEvents {checks : ℕ} (h : checks ≤ 6) :
    TrackerRun [ownDevice] (lit "importer.local") (silentEvents checks) (ownDeviceTracker checks) [] := by
  induction checks with
  | zero => exact Run.start.step trivial rfl
  | succ checks ih =>
    have hevents : silentEvents (checks+1) = silentEvents checks ++ [.check .ascending] := by
      rw [silentEvents,List.replicate_succ',← List.cons_append,silentEvents]
    rw [hevents]
    exact (ih (by omega)).step trivial (reconnectStaleDevices_ownDeviceTracker _ (by omega))

theorem reconnectStaleDevices_silent_sample :
    TrackerRun [ownDevice] (lit "importer.local") (silentEvents 5) (ownDeviceTracker 5) [] ∧
      ((∃ next actions,reconnectStaleDevices .ascending (knownDevicesNew [ownDevice]) (lit "importer.local") (ownDeviceTracker 5) =
          .ok (next,actions) ∧ RemovesSilent (silentEvents 5) (ownDeviceTracker 5) next) ↔
        ∀ (device : UInt32) (info : DeviceInfo) (spec : Bytes),(ownDeviceTracker 5).seenDevices[device]? = some info →
          Silent device initialHeartbeatCredit (silentEvents 5) → info.pubSpec = some spec →
            (strstr spec (lit "importer.local")).isSome → ∃ s ∈ [ownDevice],namesLocalhost s) :=
  have hrun := trackerRun_silentEvents (by decide : 5 ≤ 6)
  ⟨hrun,reconnectStaleDevices_silent_iff hrun .ascending⟩

/-- After six silent checks, the next one does not remove the device but aborts. -/
theorem reconnectStaleDevices_seventh_check :
    TrackerRun [ownDevice] (lit "importer.local") (silentEvents 6) (ownDeviceTracker 6) [] ∧
      (ownDeviceTracker 6).seenDevices[(1 : UInt32)]? = some ⟨7,0,0,some ownDevice⟩ ∧
      Silent 1 initialHeartbeatCredit (silentEvents 6) ∧
      reconnectStaleDevices .ascending (knownDevicesNew [ownDevice]) (lit "importer.local") (ownDeviceTracker 6) =
        .error .nullString := by
  refine ⟨trackerRun_silentEvents le_rfl,getElem?_ownDeviceTracker 6 1,?_,?_⟩
  · exact ⟨[_],_,rfl,by decide,by decide⟩
  · exact reconnectStaleDevices_of_mem (mem_staleDevices_ownDevice.mpr le_rfl) connectionSpec_ownDevice

end Logjam
