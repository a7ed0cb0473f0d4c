import Logjam.Library.Numbering
import Logjam.Relay.Device
import Logjam.Util.GapAccounting

/-! Runs of the forwarder and of the bridge, as sequences of calls of their handlers, and the
sequence numbers a consumer downstream sees. -/
namespace Logjam.Relay
open Logjam.Library.Numbering

/-- A call of the message handler: the message on the socket, the state of the flag
zsys_interrupted before every part, and the contents of the stack. -/
structure Reading where
  interrupted : ℕ → Bool
  stack : ℕ → Bytes
  first : Bytes
  rest : List Bytes

def Reading.reception (r : Reading) : Reception := receiveParts r.interrupted 0 r.first r.rest

def Reading.parts (r : Reading) : ℕ → Bytes := messageParts (r.first::r.rest) r.reception.left r.stack

/-- The counter says that there are three or four parts. -/
def Reading.Complete (r : Reading) : Prop := ¬(r.reception.last < 2 ∨ 3 < r.reception.last)

instance (r : Reading) : Decidable r.Complete := by unfold Reading.Complete; infer_instance

def Reading.hasMeta (r : Reading) : Bool := r.reception.last == 3

namespace Forwarder

structure Program where
  state : State
  ticks : ℕ

inductive Input
  | message (r : Reading)
  | timer (now : UInt64)

def timerEvent (p : Program) (now : UInt64) : Program :=
  let state := { p.state with globalTime := now, received := { p.state.received with maxBytes := 0 } }
  let ticks := p.ticks+1
  if ticks%Device.heartBeatInterval = 0 then
    ⟨{ state with tracker := deviceTrackerReconnectStaleDevices state.tracker },ticks⟩
  else ⟨state,ticks⟩

/-- No send fails. -/
def step (p : Program) : Input → Program × List Sent
  | .message r =>
    let handled := readZmqMessageAndForward true r.interrupted r.stack p.state r.first r.rest
    ({ p with state := handled.state },handled.emitted)
  | .timer now => (timerEvent p now,[])

/-- What the handler does with the next sequence number. -/
def use : Input → Use
  | .message r => if r.Complete then if isHeartbeat r.parts then .silent else .sent else .free
  | .timer _ => .free

end Forwarder

namespace Bridge

structure Program where
  state : State
  ticks : ℕ

inductive Input
  | message (fromCompressor : Bool) (r : Reading)
  | timer (now : UInt64)

def timerEvent (p : Program) (now : UInt64) : Program :=
  let state := { p.state with
    globalTime := now
    received := { p.state.received with maxBytes := 0 }
    decompressed := { p.state.decompressed with maxBytes := 0 } }
  let ticks := p.ticks+1
  if ticks%Device.heartBeatInterval = 0 then
    ⟨{ state with tracker := deviceTrackerReconnectStaleDevices state.tracker },ticks⟩
  else ⟨state,ticks⟩

/-- No send fails. -/
def step (p : Program) : Input → Program × List Sent
  | .message fromCompressor r =>
    let handled :=
      readZmqMessageAndForward fromCompressor true r.interrupted r.stack p.state r.first r.rest
    ({ p with state := handled.state },handled.emitted)
  | .timer now => (timerEvent p now,[])

/-- A message for the decompressors gets its number when it is back. -/
def use : Input → Use
  | .message _ r =>
    if r.Complete then
      if (receivedMeta r.parts r.hasMeta).compressionMethod ≠ 0 then .free
      else if isHeartbeat r.parts then .silent else .sent
    else .free
  | .timer _ => .free

end Bridge

/-! What a consumer makes of a run. -/

section
variable {σ ι : Type}

/-- All that is sent in a run. -/
def outputs (step : σ → ι → σ × List Sent) : σ → List ι → List Sent
  | _,[] => []
  | state,input::rest => (step state input).2 ++ outputs step (step state input).1 rest

/-- The messages sent downstream, as a consumer hands them to its tracker. -/
def downstream (out : List Sent) : List (MsgMeta × Option Bytes) :=
  (out.filter fun sent => sent.socket = .publisher).map fun sent =>
    (decodedMeta (sent.frames.getD 3 []),pubSpec fun i => sent.frames.getD i [])

def origin (e : MsgMeta × Option Bytes) : UInt32 × UInt64 := (e.1.deviceNumber,e.1.sequenceNumber)

/-- What is asked of the messages sent downstream: their numbers are consecutive, and the tracker of
a consumer finds no gap. -/
structure NoHoles (out : List Sent) : Prop where
  consecutive : Consecutive ((downstream out).map fun e => e.1.sequenceNumber)
  noGap : ∀ device, totalGap device deviceTrackerNew (downstream out) = 0

/-- A step takes a number for every message it sends downstream, and for the silent ones. -/
structure Numbers (step : σ → ι → σ × List Sent) (msgMeta : σ → MsgMeta) (use : ι → Use) : Prop where
  device : ∀ state input, (msgMeta (step state input).1).deviceNumber = (msgMeta state).deviceNumber
  sequence : ∀ state input,
    (msgMeta (step state input).1).sequenceNumber = (use input).next (msgMeta state).sequenceNumber
  sent : ∀ state input, (downstream (step state input).2).map origin =
    ((use input).numbers (msgMeta state).sequenceNumber).map (Prod.mk (msgMeta state).deviceNumber)

lemma downstream_append (a b : List Sent) : downstream (a ++ b) = downstream a ++ downstream b := by
  simp [downstream]

variable {step : σ → ι → σ × List Sent} {msgMeta : σ → MsgMeta} {use : ι → Use}

/-- What one step does to the numbers, a run does. -/
theorem Numbers.outputs (h : Numbers step msgMeta use) (state : σ) (inputs : List ι) :
    (downstream (outputs step state inputs)).map origin =
      (sentNumbers (msgMeta state).sequenceNumber (inputs.map use)).map
        (Prod.mk (msgMeta state).deviceNumber) := by
  induction inputs generalizing state with
  | nil => rfl
  | cons input inputs ih =>
    rw [Relay.outputs,downstream_append,List.map_append,h.sent,ih,h.device,h.sequence,List.map_cons,
      sentNumbers,List.map_append]

end

lemma sequenceGap_succ (a : UInt64) : sequenceGap a (a+1) = 0 := by
  have hgap : a+1-a-1 = 0 := by rw [UInt64.add_comm,UInt64.add_sub_cancel,UInt64.sub_self]
  unfold sequenceGap
  rw [hgap]
  rfl

lemma gapsFrom_of_consecutive {numbers : List UInt64} (h : Consecutive numbers) :
    gapsFrom none numbers = 0 := by
  cases numbers with
  | nil => rfl
  | cons a rest =>
    rw [gapsFrom]
    induction rest generalizing a with
    | nil => rfl
    | cons b rest ih =>
      obtain ⟨rfl,hrest⟩ := List.isChain_cons_cons.mp h
      rw [gapsFrom,sequenceGap_succ,ih _ hrest]
      rfl

lemma numbersOf_eq (device : UInt32) (msgs : List (MsgMeta × Option Bytes)) :
    numbersOf device msgs = ((msgs.map origin).filter fun o => o.1 = device).map Prod.snd := by
  rw [List.filter_map,List.map_map]
  rfl

/-- All messages are of one device, so that the tracker sees all numbers or none. -/
lemma totalGap_of_origin {msgs : List (MsgMeta × Option Bytes)} {device : UInt32} {numbers : List UInt64}
    (h : msgs.map origin = numbers.map (Prod.mk device)) (hc : Consecutive numbers) (d : UInt32) :
    totalGap d deviceTrackerNew msgs = 0 := by
  rcases eq_or_ne d 0 with rfl | hd
  · exact totalGap_zero deviceTrackerNew msgs
  · have hlast : lastNumber deviceTrackerNew d = none := by rw [lastNumber]; rfl
    rw [totalGap_eq hd,hlast,numbersOf_eq,h,List.filter_map,List.map_map]
    by_cases heq : device = d
    · have hall : numbers.filter ((fun o : UInt32 × UInt64 => decide (o.1 = d)) ∘ Prod.mk device) = numbers :=
        List.filter_eq_self.mpr fun n _ => decide_eq_true heq
      rw [hall]
      simpa [Function.comp_def] using gapsFrom_of_consecutive hc
    · have hnone : numbers.filter ((fun o : UInt32 × UInt64 => decide (o.1 = d)) ∘ Prod.mk device) = [] :=
        List.filter_eq_nil_iff.mpr fun n _ => by simpa using heq
      rw [hnone]
      rfl

theorem Numbers.noHoles_outputs_iff {σ ι : Type} {step : σ → ι → σ × List Sent} {msgMeta : σ → MsgMeta}
    {use : ι → Use} (h : Numbers step msgMeta use) (state : σ) (inputs : List ι) :
    NoHoles (Relay.outputs step state inputs) ↔ ∀ hole ∈ holes (inputs.map use), 2^64 ∣ hole := by
  have horigin := h.outputs state inputs
  have hnumbers : (downstream (Relay.outputs step state inputs)).map (fun e => e.1.sequenceNumber) =
      sentNumbers (msgMeta state).sequenceNumber (inputs.map use) := by
    have hsnd := congrArg (List.map Prod.snd) horigin
    simpa [List.map_map,Function.comp_def,origin] using hsnd
  rw [← consecutive_sentNumbers_iff (msgMeta state).sequenceNumber]
  constructor
  · intro hn
    rw [← hnumbers]
    exact hn.consecutive
  · intro hc
    refine ⟨?_,totalGap_of_origin horigin hc⟩
    rwa [hnumbers]

/-! The two programs. -/

section
variable {σ : Type} (process : σ → (ℕ → Bytes) → Bool → Handled σ) (state : σ) {r : Reading}

lemma relayMessage_complete (h : r.Complete) :
    (relayMessage process r.interrupted r.stack state r.first r.rest).state =
        (process state r.parts r.hasMeta).state ∧
      (relayMessage process r.interrupted r.stack state r.first r.rest).emitted =
        (process state r.parts r.hasMeta).emitted := by
  have hdispatch : dispatch process state r.parts r.reception.last = process state r.parts r.hasMeta :=
    if_neg h
  rw [← hdispatch]
  exact ⟨rfl,rfl⟩

lemma relayMessage_incomplete (h : ¬r.Complete) :
    (relayMessage process r.interrupted r.stack state r.first r.rest).state = state ∧
      (relayMessage process r.interrupted r.stack state r.first r.rest).emitted = [] := by
  have hdispatch : dispatch process state r.parts r.reception.last = ⟨[],state,[]⟩ :=
    if_pos (not_not.mp h)
  exact ⟨congrArg Handled.state hdispatch,congrArg Handled.emitted hdispatch⟩

end

/-- A consumer decodes what was written into the meta frame. -/
lemma downstream_publisher (parts : ℕ → Bytes) (m : MsgMeta) :
    (downstream ((publishOnZmqTransport parts m true).emitted .publisher)).map origin =
      [(m.deviceNumber,m.sequenceNumber)] := by
  have h := decodedMeta_msgAddMetaInfo m
  simp [downstream,publishOnZmqTransport,Publication.emitted,origin,h]

lemma downstream_compressorInput (parts : ℕ → Bytes) (m : MsgMeta) :
    downstream ((publishOnZmqTransport parts m true).emitted .compressorInput) = [] := by
  simp [downstream,publishOnZmqTransport,Publication.emitted]

namespace Forwarder

lemma step_incomplete {r : Reading} (h : ¬r.Complete) (p : Program) : step p (.message r) = (p,[]) := by
  obtain ⟨hstate,hemitted⟩ := relayMessage_incomplete (process true) p.state h
  simp only [step,readZmqMessageAndForward,hstate,hemitted]

lemma step_complete {r : Reading} (h : r.Complete) (p : Program) :
    step p (.message r) = ({ p with state := (process true p.state r.parts r.hasMeta).state },
      (process true p.state r.parts r.hasMeta).emitted) := by
  obtain ⟨hstate,hemitted⟩ := relayMessage_complete (process true) p.state h
  simp only [step,readZmqMessageAndForward,hstate,hemitted]

lemma msgMeta_timerEvent (p : Program) (now : UInt64) :
    (timerEvent p now).state.msgMeta = p.state.msgMeta := by
  unfold timerEvent
  dsimp only
  split <;> rfl

theorem numbers : Numbers step (fun p => p.state.msgMeta) use where
  device p input := by
    cases input with
    | timer now => exact congrArg MsgMeta.deviceNumber (msgMeta_timerEvent p now)
    | message r =>
      by_cases h : r.Complete
      · rw [step_complete h]
        simp only [process]
        split <;> rfl
      · rw [step_incomplete h]
  sequence p input := by
    cases input with
    | timer now => exact congrArg MsgMeta.sequenceNumber (msgMeta_timerEvent p now)
    | message r =>
      by_cases h : r.Complete
      · rw [step_complete h,use,if_pos h]
        simp only [process]
        split <;> rfl
      · rw [step_incomplete h,use,if_neg h]
        rfl
  sent p input := by
    cases input with
    | timer now => rfl
    | message r =>
      by_cases h : r.Complete
      · rw [step_complete h,use,if_pos h]
        simp only [process]
        split
        · rfl
        · exact downstream_publisher _ _
      · rw [step_incomplete h,use,if_neg h]
        rfl

end Forwarder

namespace Bridge

/-! What the bridge makes of three or four parts, case by case. -/

/-- The global meta struct for a message that goes to the decompressors. -/
def stamped (state : State) (m : MsgMeta) : MsgMeta :=
  { state.msgMeta with createdMs := createdMs m state.globalTime, compressionMethod := m.compressionMethod }

/-- The global meta struct for a message that is forwarded. -/
def numbered (state : State) (m : MsgMeta) : MsgMeta :=
  { stamped state m with sequenceNumber := state.msgMeta.sequenceNumber+1 }

section
variable (fromCompressor accepts : Bool) (state : State) {parts : ℕ → Bytes} {hasMeta : Bool}

lemma process_compressed (h : (receivedMeta parts hasMeta).compressionMethod ≠ 0) :
    (process fromCompressor accepts state parts hasMeta).emitted =
        (publishOnZmqTransport parts (stamped state (receivedMeta parts hasMeta)) accepts).emitted
          .compressorInput ∧
      (process fromCompressor accepts state parts hasMeta).state =
        { state.count fromCompressor (parts 2).length with
          msgMeta := stamped state (receivedMeta parts hasMeta) } := by
  simp only [process,if_pos h]
  exact ⟨rfl,rfl⟩

lemma process_heartbeat (h : (receivedMeta parts hasMeta).compressionMethod = 0)
    (hh : isHeartbeat parts = true) :
    (process fromCompressor accepts state parts hasMeta).emitted = [] ∧
      (process fromCompressor accepts state parts hasMeta).state =
        { state.count fromCompressor (parts 2).length with
          msgMeta := numbered state (receivedMeta parts hasMeta)
          tracker := (deviceTrackerCalculateGap state.tracker
            (numbered state (receivedMeta parts hasMeta)) (pubSpec parts)).1 } := by
  simp only [process,if_neg (not_not.mpr h),if_pos hh,true_and]
  cases fromCompressor <;> rfl

lemma process_data (h : (receivedMeta parts hasMeta).compressionMethod = 0)
    (hh : ¬isHeartbeat parts = true) :
    (process fromCompressor accepts state parts hasMeta).emitted =
        (publishOnZmqTransport parts (numbered state (receivedMeta parts hasMeta)) accepts).emitted
          .publisher ∧
      (process fromCompressor accepts state parts hasMeta).state =
        { state.count fromCompressor (parts 2).length with
          msgMeta := numbered state (receivedMeta parts hasMeta)
          tracker := (deviceTrackerCalculateGap state.tracker
            (numbered state (receivedMeta parts hasMeta)) (pubSpec parts)).1
          droppedMessagesCount := countDrop accepts state.droppedMessagesCount } := by
  simp only [process,if_neg (not_not.mpr h),if_neg hh]
  cases fromCompressor <;> exact ⟨rfl,rfl⟩

lemma process_plain (h : (receivedMeta parts hasMeta).compressionMethod = 0) :
    (process fromCompressor accepts state parts hasMeta).state.msgMeta =
      numbered state (receivedMeta parts hasMeta) := by
  by_cases hh : isHeartbeat parts = true
  · rw [(process_heartbeat fromCompressor accepts state h hh).2]
  · rw [(process_data fromCompressor accepts state h hh).2]

end

lemma step_incomplete {fromCompressor : Bool} {r : Reading} (h : ¬r.Complete) (p : Program) :
    step p (.message fromCompressor r) = (p,[]) := by
  obtain ⟨hstate,hemitted⟩ := relayMessage_incomplete (process fromCompressor true) p.state h
  simp only [step,readZmqMessageAndForward,hstate,hemitted]

lemma step_complete {fromCompressor : Bool} {r : Reading} (h : r.Complete) (p : Program) :
    step p (.message fromCompressor r) =
      ({ p with state := (process fromCompressor true p.state r.parts r.hasMeta).state },
        (process fromCompressor true p.state r.parts r.hasMeta).emitted) := by
  obtain ⟨hstate,hemitted⟩ := relayMessage_complete (process fromCompressor true) p.state h
  simp only [step,readZmqMessageAndForward,hstate,hemitted]

lemma msgMeta_timerEvent (p : Program) (now : UInt64) :
    (timerEvent p now).state.msgMeta = p.state.msgMeta := by
  unfold timerEvent
  dsimp only
  split <;> rfl

theorem numbers : Numbers step (fun p => p.state.msgMeta) use where
  device p input := by
    cases input with
    | timer now => exact congrArg MsgMeta.deviceNumber (msgMeta_timerEvent p now)
    | message fromCompressor r =>
      by_cases h : r.Complete
      · rw [step_complete h]
        simp only [process]
        split
        · rfl
        · split <;> rfl
      · rw [step_incomplete h]
  sequence p input := by
    cases input with
    | timer now => exact congrArg MsgMeta.sequenceNumber (msgMeta_timerEvent p now)
    | message fromCompressor r =>
      by_cases h : r.Complete
      · rw [step_complete h,use,if_pos h]
        simp only [process]
        split
        · rfl
        · split <;> rfl
      · rw [step_incomplete h,use,if_neg h]
        rfl
  sent p input := by
    cases input with
    | timer now => rfl
    | message fromCompressor r =>
      by_cases h : r.Complete
      · rw [step_complete h,use,if_pos h]
        simp only [process]
        split
        · rw [downstream_compressorInput]
          rfl
        · split
          · rfl
          · exact downstream_publisher _ _
      · rw [step_incomplete h,use,if_neg h]
        rfl

end Bridge

/-- Forwarder and bridge number their messages without holes exactly if no heartbeats arrive between
them, or as many as there are numbers. -/
theorem noHoles_iff (forwarder : Forwarder.Program) (forwarded : List Forwarder.Input)
    (bridge : Bridge.Program) (bridged : List Bridge.Input) :
    (NoHoles (outputs Forwarder.step forwarder forwarded) ↔
      ∀ hole ∈ holes (forwarded.map Forwarder.use), 2^64 ∣ hole) ∧
    (NoHoles (outputs Bridge.step bridge bridged) ↔
      ∀ hole ∈ holes (bridged.map Bridge.use), 2^64 ∣ hole) :=
  ⟨Forwarder.numbers.noHoles_outputs_iff forwarder forwarded,Bridge.numbers.noHoles_outputs_iff bridge bridged⟩

def reading (first : Bytes) (rest : List Bytes) : Reading := ⟨fun _ => false,fun _ => [],first,rest⟩

def dataReading : Reading := reading (lit "app-production") [lit "logs",lit "\x7b\x7d"]

def heartbeatReading : Reading := reading (lit "heartbeat") [lit "tcp://localhost:9606",lit "\x7b\x7d"]

/-- One heartbeat between two messages, relayed by device 1. -/
theorem noHoles_heartbeat_between :
    ¬NoHoles (outputs Forwarder.step
        ⟨{ Forwarder.sampleState with msgMeta := { metaInfoEmpty with deviceNumber := 1 } },0⟩
        ([dataReading,heartbeatReading,dataReading].map .message)) ∧
      ¬NoHoles (outputs Bridge.step
        ⟨{ Bridge.sampleState with msgMeta := { metaInfoEmpty with deviceNumber := 1 } },0⟩
        ([dataReading,heartbeatReading,dataReading].map (.message false))) :=
  ⟨fun h => absurd h.consecutive (by decide +kernel),fun h => absurd h.consecutive (by decide +kernel)⟩

end Logjam.Relay
