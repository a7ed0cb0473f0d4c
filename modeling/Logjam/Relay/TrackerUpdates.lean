import Logjam.Relay.InvalidMeta

/-! What the forwarder and the bridge tell their device trackers about the same messages: the forwarder hands
on the numbers it has received, the bridge those it sends. -/
namespace Logjam.Relay

/-- A message with valid meta information that is not compressed. -/
structure PlainMessage where
  stream : Bytes
  topic : Bytes
  body : Bytes
  metaFrame : Bytes
  valid : ValidMeta metaFrame
  uncompressed : (decodedMeta metaFrame).compressionMethod = 0

def PlainMessage.received (m : PlainMessage) : MsgMeta := decodedMeta m.metaFrame

def PlainMessage.pubSpec (m : PlainMessage) : Option Bytes :=
  if m.stream == lit "heartbeat" then some (cstr m.topic) else none

/-- What both programs see. Their publishers may take the message or not. -/
inductive Arrival
  | message (m : PlainMessage) (stack : ℕ → Bytes) (forwarderAccepts bridgeAccepts : Bool)
  | timer (now : UInt64)

/-- The arguments of device_tracker_calculate_gap. -/
structure TrackerCall where
  msgMeta : MsgMeta
  pubSpec : Option Bytes

/-- What the tracker takes from its arguments. -/
structure TrackerUpdate where
  deviceNumber : UInt32
  sequenceNumber : UInt64
  pubSpec : Option Bytes
  deriving DecidableEq

def TrackerCall.update (call : TrackerCall) : TrackerUpdate :=
  ⟨call.msgMeta.deviceNumber,call.msgMeta.sequenceNumber,call.pubSpec⟩

/-- The tracker does nothing about messages without a device number. -/
def updates (calls : List TrackerCall) : List TrackerUpdate :=
  (calls.map TrackerCall.update).filter fun update => update.deviceNumber != 0

section
variable {σ ι : Type} (next : σ → ι → σ) (call : σ → ι → Option TrackerCall) (tracker : σ → DeviceTracker)

def trackerCalls : σ → List ι → List TrackerCall
  | _,[] => []
  | state,input::rest => (call state input).toList ++ trackerCalls (next state input) rest

/-- The results of the calls. -/
def reportedGaps : σ → List ι → List UInt64
  | _,[] => []
  | state,input::rest =>
    (call state input).toList.map (fun c => (deviceTrackerCalculateGap (tracker state) c.msgMeta c.pubSpec).2) ++
      reportedGaps (next state input) rest

end

namespace Forwarder

def next (p : Program) : Arrival → Program
  | .message m stack accepts _ =>
    { p with state := (readZmqMessageAndForward accepts (fun _ => false) stack p.state m.stream
      [m.topic,m.body,m.metaFrame]).state }
  | .timer now => timerEvent p now

def trackerCall (_ : Program) : Arrival → Option TrackerCall
  | .message m _ _ _ => some ⟨m.received,m.pubSpec⟩
  | .timer _ => none

end Forwarder

namespace Bridge

def next (p : Program) : Arrival → Program
  | .message m stack _ accepts =>
    { p with state := (readZmqMessageAndForward false accepts (fun _ => false) stack p.state m.stream
      [m.topic,m.body,m.metaFrame]).state }
  | .timer now => timerEvent p now

def trackerCall (p : Program) : Arrival → Option TrackerCall
  | .message m _ _ _ => some ⟨numbered p.state m.received,m.pubSpec⟩
  | .timer _ => none

end Bridge

/-! The calls are those of the handlers. -/

section
variable {σ : Type} (process : σ → (ℕ → Bytes) → Bool → Handled σ) (state : σ) (m : PlainMessage) (stack : ℕ → Bytes)

def PlainMessage.parts : ℕ → Bytes := fourParts stack m.stream m.topic m.body m.metaFrame

lemma state_relayMessage_plain :
    (relayMessage process (fun _ => false) stack state m.stream [m.topic,m.body,m.metaFrame]).state =
      (process state (m.parts stack) true).state :=
  (relayMessage_complete process state (r := ⟨fun _ => false,stack,m.stream,[m.topic,m.body,m.metaFrame]⟩)
    (show ¬(3 < 2 ∨ 3 < 3) by decide)).1

lemma receivedMeta_plain : receivedMeta (m.parts stack) true = m.received := by
  rw [PlainMessage.parts,receivedMeta_fourParts,zmqMsgExtractMetaInfo,frameExtractMetaInfo_of_valid m.valid]
  rfl

lemma pubSpec_plain : pubSpec (m.parts stack) = m.pubSpec := rfl

end

/-- The tracker after a call. -/
def TrackerCall.apply (tracker : DeviceTracker) (call : TrackerCall) : DeviceTracker :=
  (deviceTrackerCalculateGap tracker call.msgMeta call.pubSpec).1

lemma Forwarder.tracker_next_message (p : Program) (m : PlainMessage) (stack : ℕ → Bytes) (accepts other : Bool) :
    (next p (.message m stack accepts other)).state.tracker = TrackerCall.apply p.state.tracker ⟨m.received,m.pubSpec⟩ := by
  rw [next,readZmqMessageAndForward,state_relayMessage_plain,process,receivedMeta_plain,pubSpec_plain]
  split <;> rfl

lemma Bridge.next_message (p : Program) (m : PlainMessage) (stack : ℕ → Bytes) (other accepts : Bool) :
    (next p (.message m stack other accepts)).state.tracker =
        TrackerCall.apply p.state.tracker ⟨numbered p.state m.received,m.pubSpec⟩ ∧
      (next p (.message m stack other accepts)).state.msgMeta = numbered p.state m.received := by
  have hplain : (receivedMeta (m.parts stack) true).compressionMethod = 0 := by
    rw [receivedMeta_plain]
    exact m.uncompressed
  rw [next,readZmqMessageAndForward,state_relayMessage_plain]
  by_cases hh : isHeartbeat (m.parts stack) = true
  · rw [(process_heartbeat false accepts p.state hplain hh).2,receivedMeta_plain,pubSpec_plain]
    exact ⟨rfl,rfl⟩
  · rw [(process_data false accepts p.state hplain hh).2,receivedMeta_plain,pubSpec_plain]
    exact ⟨rfl,rfl⟩

/-- The timer does the same to both trackers. -/
lemma tracker_timerEvent {forwarder : Forwarder.Program} {bridge : Bridge.Program}
    (htracker : forwarder.state.tracker = bridge.state.tracker) (hticks : forwarder.ticks = bridge.ticks) (now : UInt64) :
    (Forwarder.timerEvent forwarder now).state.tracker = (Bridge.timerEvent bridge now).state.tracker ∧
      (Forwarder.timerEvent forwarder now).ticks = (Bridge.timerEvent bridge now).ticks := by
  unfold Forwarder.timerEvent Bridge.timerEvent
  dsimp only
  rw [htracker,hticks]
  split <;> exact ⟨rfl,rfl⟩

/-! The updates of a run. -/

def Arrival.plainMessage : Arrival → Option PlainMessage
  | .message m _ _ _ => some m
  | .timer _ => none

def messages (arrivals : List Arrival) : List PlainMessage := arrivals.filterMap Arrival.plainMessage

/-- The messages under the numbers that the bridge gives them. -/
def renumbered (device : UInt32) : UInt64 → List PlainMessage → List TrackerUpdate
  | _,[] => []
  | last,m::rest => ⟨device,last+1,m.pubSpec⟩::renumbered device (last+1) rest

/-- The messages have these numbers already. Without a device number there is nothing to compare. -/
def CarryNumbers (device : UInt32) : UInt64 → List PlainMessage → Prop
  | _,[] => True
  | last,m::rest => m.received.deviceNumber = device ∧ (device = 0 ∨ m.received.sequenceNumber = last+1) ∧
      CarryNumbers device (last+1) rest

lemma Forwarder.updates_trackerCalls (p : Program) (arrivals : List Arrival) :
    (trackerCalls next trackerCall p arrivals).map TrackerCall.update =
      (messages arrivals).map fun m => ⟨m.received.deviceNumber,m.received.sequenceNumber,m.pubSpec⟩ := by
  induction arrivals generalizing p with
  | nil => rfl
  | cons a arrivals ih =>
    rw [trackerCalls,List.map_append,ih]
    cases a <;> rfl

lemma Bridge.updates_trackerCalls (p : Program) (arrivals : List Arrival) :
    (trackerCalls next trackerCall p arrivals).map TrackerCall.update =
      renumbered p.state.msgMeta.deviceNumber p.state.msgMeta.sequenceNumber (messages arrivals) := by
  induction arrivals generalizing p with
  | nil => rfl
  | cons a arrivals ih =>
    rw [trackerCalls,List.map_append,ih]
    cases a with
    | message m stack other accepts =>
      rw [(next_message p m stack other accepts).2]
      rfl
    | timer now =>
      rw [next,msgMeta_timerEvent]
      rfl

lemma length_renumbered (device : UInt32) (last : UInt64) (msgs : List PlainMessage) :
    (renumbered device last msgs).length = msgs.length := by
  induction msgs generalizing last with
  | nil => rfl
  | cons m msgs ih => rw [renumbered,List.length_cons,List.length_cons,ih]

lemma filter_renumbered (device : UInt32) (last : UInt64) (msgs : List PlainMessage) :
    (renumbered device last msgs).filter (fun update => update.deviceNumber != 0) =
      if device = 0 then [] else renumbered device last msgs := by
  induction msgs generalizing last with
  | nil => exact (ite_self []).symm
  | cons m msgs ih =>
    rw [renumbered,List.filter_cons,ih]
    by_cases hzero : device = 0 <;> simp [hzero]

/-- Lists of updates are the same if the numbers are. A message without a device number would be missing on
one side only. -/
lemma filter_eq_iff (device : UInt32) (last : UInt64) (msgs : List PlainMessage) :
    (msgs.map fun m => (⟨m.received.deviceNumber,m.received.sequenceNumber,m.pubSpec⟩ : TrackerUpdate)).filter
        (fun update => update.deviceNumber != 0) =
      (renumbered device last msgs).filter (fun update => update.deviceNumber != 0) ↔ CarryNumbers device last msgs := by
  rw [filter_renumbered]
  induction msgs generalizing last with
  | nil => simp [renumbered,CarryNumbers]
  | cons m msgs ih =>
    have ih := ih (last+1)
    rw [renumbered,CarryNumbers,← ih,List.map_cons,List.filter_cons]
    by_cases hzero : device = 0
    · by_cases hm : m.received.deviceNumber = 0 <;> simp [hzero,hm]
    · by_cases hm : m.received.deviceNumber = 0
      · rw [if_neg hzero,if_neg (by simp [hm])]
        refine iff_of_false (fun heq => ?_) fun h => hzero (h.1.symm.trans hm)
        have hlength := congrArg List.length heq
        have hle := List.length_filter_le (fun update : TrackerUpdate => update.deviceNumber != 0)
          (msgs.map fun m => ⟨m.received.deviceNumber,m.received.sequenceNumber,m.pubSpec⟩)
        rw [hlength,List.length_cons,length_renumbered,List.length_map] at hle
        omega
      · rw [if_neg hzero,if_pos (by simp [hm]),List.cons.injEq,TrackerUpdate.mk.injEq,if_neg hzero]
        simp only [hzero,false_or,and_true,and_assoc]

/-! The gaps of a run. -/

lemma deviceTrackerCalculateGap_congr (tracker : DeviceTracker) {m m' : MsgMeta} (pubSpec : Option Bytes)
    (hdevice : m.deviceNumber = m'.deviceNumber) (hnumber : m'.deviceNumber = 0 ∨ m.sequenceNumber = m'.sequenceNumber) :
    deviceTrackerCalculateGap tracker m pubSpec = deviceTrackerCalculateGap tracker m' pubSpec := by
  unfold deviceTrackerCalculateGap
  rcases hnumber with hzero | hnumber
  · rw [if_pos (hdevice.trans hzero),if_pos hzero]
  · rw [hdevice,hnumber]

/-- Trackers that are told the same answer the same. -/
lemma reportedGaps_eq {forwarder : Forwarder.Program} {bridge : Bridge.Program} {arrivals : List Arrival}
    (htracker : forwarder.state.tracker = bridge.state.tracker) (hticks : forwarder.ticks = bridge.ticks)
    (h : CarryNumbers bridge.state.msgMeta.deviceNumber bridge.state.msgMeta.sequenceNumber (messages arrivals)) :
    reportedGaps Forwarder.next Forwarder.trackerCall (·.state.tracker) forwarder arrivals =
      reportedGaps Bridge.next Bridge.trackerCall (·.state.tracker) bridge arrivals := by
  induction arrivals generalizing forwarder bridge with
  | nil => rfl
  | cons a arrivals ih =>
    cases a with
    | message m stack forwarderAccepts bridgeAccepts =>
      obtain ⟨hdevice,hnumber,hrest⟩ : CarryNumbers _ _ (m::messages arrivals) := h
      obtain ⟨hnext,hmeta⟩ := Bridge.next_message bridge m stack forwarderAccepts bridgeAccepts
      have hcall : deviceTrackerCalculateGap bridge.state.tracker m.received m.pubSpec =
          deviceTrackerCalculateGap bridge.state.tracker (Bridge.numbered bridge.state m.received) m.pubSpec :=
        deviceTrackerCalculateGap_congr bridge.state.tracker m.pubSpec hdevice hnumber
      refine congrArg₂ (· ++ ·) ?_ (ih ?_ ?_ ?_)
      · simp only [Forwarder.trackerCall,Bridge.trackerCall,Option.toList_some,List.map_singleton,htracker,hcall]
      · rw [Forwarder.tracker_next_message,hnext,TrackerCall.apply,TrackerCall.apply,htracker,hcall]
      · exact hticks
      · rw [hmeta]
        exact hrest
    | timer now =>
      obtain ⟨htracker,hticks⟩ := tracker_timerEvent htracker hticks now
      refine ih htracker hticks ?_
      rw [Bridge.next,Bridge.msgMeta_timerEvent]
      exact h

theorem trackerUpdates_eq_iff {forwarder : Forwarder.Program} {bridge : Bridge.Program}
    (htracker : forwarder.state.tracker = bridge.state.tracker) (hticks : forwarder.ticks = bridge.ticks)
    (arrivals : List Arrival) :
    (updates (trackerCalls Forwarder.next Forwarder.trackerCall forwarder arrivals) =
        updates (trackerCalls Bridge.next Bridge.trackerCall bridge arrivals) ∧
      reportedGaps Forwarder.next Forwarder.trackerCall (·.state.tracker) forwarder arrivals =
        reportedGaps Bridge.next Bridge.trackerCall (·.state.tracker) bridge arrivals) ↔
      CarryNumbers bridge.state.msgMeta.deviceNumber bridge.state.msgMeta.sequenceNumber (messages arrivals) := by
  have hupdates : updates (trackerCalls Forwarder.next Forwarder.trackerCall forwarder arrivals) =
      updates (trackerCalls Bridge.next Bridge.trackerCall bridge arrivals) ↔
        CarryNumbers bridge.state.msgMeta.deviceNumber bridge.state.msgMeta.sequenceNumber (messages arrivals) := by
    rw [updates,updates,Forwarder.updates_trackerCalls,Bridge.updates_trackerCalls,filter_eq_iff]
  exact ⟨fun h => hupdates.mp h.1,fun h => ⟨hupdates.mpr h,reportedGaps_eq htracker hticks h⟩⟩

/-- A message of device 7. -/
def messageOfSeven (sequenceNumber : UInt64) : PlainMessage where
  stream := lit "shop-production"
  topic := lit "logs"
  body := lit "\x7b\x7d"
  metaFrame := msgAddMetaInfo { metaInfoEmpty with deviceNumber := 7, sequenceNumber := sequenceNumber }
  valid := validMeta_msgAddMetaInfo rfl
  uncompressed := congrArg MsgMeta.compressionMethod (decodedMeta_msgAddMetaInfo _)

def arrivalOfSeven (sequenceNumber : UInt64) : Arrival := .message (messageOfSeven sequenceNumber) (fun _ => []) true true

/-- A bridge with a device number of its own. -/
def Bridge.sampleProgram (device : UInt32) : Bridge.Program :=
  ⟨{ sampleState with msgMeta := { metaInfoEmpty with deviceNumber := device } },0⟩

def Forwarder.sampleProgram : Forwarder.Program := ⟨sampleState,0⟩

theorem trackerUpdates_eq_sample :
    (Forwarder.sampleProgram.state.tracker = (Bridge.sampleProgram 7).state.tracker ∧
      Forwarder.sampleProgram.ticks = (Bridge.sampleProgram 7).ticks) ∧
      ((updates (trackerCalls Forwarder.next Forwarder.trackerCall Forwarder.sampleProgram [arrivalOfSeven 1,.timer 9,arrivalOfSeven 2]) =
          updates (trackerCalls Bridge.next Bridge.trackerCall (Bridge.sampleProgram 7) [arrivalOfSeven 1,.timer 9,arrivalOfSeven 2]) ∧
        reportedGaps Forwarder.next Forwarder.trackerCall (·.state.tracker) Forwarder.sampleProgram
            [arrivalOfSeven 1,.timer 9,arrivalOfSeven 2] =
          reportedGaps Bridge.next Bridge.trackerCall (·.state.tracker) (Bridge.sampleProgram 7)
            [arrivalOfSeven 1,.timer 9,arrivalOfSeven 2]) ↔
        CarryNumbers 7 0 [messageOfSeven 1,messageOfSeven 2]) :=
  ⟨⟨rfl,rfl⟩,trackerUpdates_eq_iff rfl rfl [arrivalOfSeven 1,.timer 9,arrivalOfSeven 2]⟩

/-- The message between two others is lost. The forwarder finds the gap, the bridge does not: it tells its
tracker about two messages of its own, one after the other. -/
theorem trackerUpdates_lost_message :
    updates (trackerCalls Forwarder.next Forwarder.trackerCall Forwarder.sampleProgram [arrivalOfSeven 41,arrivalOfSeven 43]) =
        [⟨7,41,none⟩,⟨7,43,none⟩] ∧
      updates (trackerCalls Bridge.next Bridge.trackerCall (Bridge.sampleProgram 1) [arrivalOfSeven 41,arrivalOfSeven 43]) =
        [⟨1,1,none⟩,⟨1,2,none⟩] ∧
      reportedGaps Forwarder.next Forwarder.trackerCall (·.state.tracker) Forwarder.sampleProgram
        [arrivalOfSeven 41,arrivalOfSeven 43] = [0,1] ∧
      reportedGaps Bridge.next Bridge.trackerCall (·.state.tracker) (Bridge.sampleProgram 1)
        [arrivalOfSeven 41,arrivalOfSeven 43] = [0,0] := by
  decide +kernel

end Logjam.Relay
