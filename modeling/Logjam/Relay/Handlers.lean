import Logjam.Relay.Receive
import Logjam.Util.DeviceTracker

/-! The message handlers of logjam-device, logjam-forwarder and logjam-pubsub-bridge. Each program
has one global meta struct for its outgoing messages, which the handler updates in place. -/
namespace Logjam.Relay

structure Traffic where
  count : ℕ
  bytes : ℕ
  maxBytes : ℕ

def Traffic.none : Traffic := ⟨0,0,0⟩

def Traffic.record (t : Traffic) (msgBytes : ℕ) : Traffic :=
  ⟨t.count+1,t.bytes+msgBytes,max t.maxBytes msgBytes⟩

/-- The meta information of the received message; the return code of the extraction is not looked
at. -/
def receivedMeta (parts : ℕ → Bytes) (hasMeta : Bool) : MsgMeta :=
  if hasMeta then (zmqMsgExtractMetaInfo (parts 3) metaInfoEmpty).2 else metaInfoEmpty

/-- The accesses to the meta frame and to the body that all handlers make. -/
def metaAndBody (hasMeta : Bool) : List PartEvent :=
  (if hasMeta then [.access (.part 3)] else []) ++ [.access (.part 2)]

def createdMs (m : MsgMeta) (globalTime : UInt64) : UInt64 :=
  if m.createdMs ≠ 0 then m.createdMs else globalTime

def isHeartbeat (parts : ℕ → Bytes) : Bool := parts 0 == lit "heartbeat"

/-- The connection a heartbeat names. -/
def pubSpec (parts : ℕ → Bytes) : Option Bytes := if isHeartbeat parts then some (cstr (parts 1)) else none

/-- The test for a heartbeat, and the copy of its connection. -/
def heartbeatAccesses (parts : ℕ → Bytes) : List PartEvent :=
  .access (.part 0)::if isHeartbeat parts then [.access (.part 1)] else []

/-- Messages the publisher socket has not taken. -/
def countDrop (accepts : Bool) (count : ℕ) : ℕ := if accepts then count else count+1

namespace Device

structure State where
  msgMeta : MsgMeta
  globalTime : UInt64
  received : Traffic
  compressed : Traffic

def State.count (state : State) (fromCompressor : Bool) (msgBytes : ℕ) : State :=
  if fromCompressor then { state with compressed := state.compressed.record msgBytes }
  else { state with received := state.received.record msgBytes }

def process (compressionMethod : UInt8) (fromCompressor accepts : Bool) (state : State)
    (parts : ℕ → Bytes) (hasMeta : Bool) : Handled State :=
  let m := receivedMeta parts hasMeta
  let msgMeta := { state.msgMeta with createdMs := createdMs m state.globalTime }
  let state := state.count fromCompressor (parts 2).length
  if compressionMethod ≠ 0 ∧ m.compressionMethod = 0 then
    let p := publishOnZmqTransport parts msgMeta accepts
    ⟨metaAndBody hasMeta ++ p.events,{ state with msgMeta := msgMeta },p.emitted .compressorInput⟩
  else
    let msgMeta := { msgMeta with
      compressionMethod := m.compressionMethod
      sequenceNumber := msgMeta.sequenceNumber+1 }
    let p := publishOnZmqTransport parts msgMeta accepts
    ⟨metaAndBody hasMeta ++ p.events,{ state with msgMeta := msgMeta },p.emitted .publisher⟩

def readZmqMessageAndForward (compressionMethod : UInt8) (fromCompressor accepts : Bool)
    (interrupted : ℕ → Bool) (stack : ℕ → Bytes) (state : State) (first : Bytes) (rest : List Bytes) :
    Handled State :=
  relayMessage (process compressionMethod fromCompressor accepts) interrupted stack state first rest

end Device

namespace Forwarder

structure State where
  msgMeta : MsgMeta
  globalTime : UInt64
  tracker : DeviceTracker
  received : Traffic
  droppedMessagesCount : ℕ

/-- Heartbeats are not forwarded, but they take a sequence number. -/
def process (accepts : Bool) (state : State) (parts : ℕ → Bytes) (hasMeta : Bool) : Handled State :=
  let m := receivedMeta parts hasMeta
  let msgMeta := { state.msgMeta with
    createdMs := createdMs m state.globalTime
    compressionMethod := m.compressionMethod
    sequenceNumber := state.msgMeta.sequenceNumber+1 }
  let tracker := (deviceTrackerCalculateGap state.tracker m (pubSpec parts)).1
  let state := { state with
    msgMeta := msgMeta
    tracker := tracker
    received := state.received.record (parts 2).length }
  if isHeartbeat parts then ⟨metaAndBody hasMeta ++ heartbeatAccesses parts,state,[]⟩
  else
    let p := publishOnZmqTransport parts msgMeta accepts
    ⟨metaAndBody hasMeta ++ (heartbeatAccesses parts ++ p.events),
      { state with droppedMessagesCount := countDrop accepts state.droppedMessagesCount },
      p.emitted .publisher⟩

def readZmqMessageAndForward (accepts : Bool) (interrupted : ℕ → Bool) (stack : ℕ → Bytes)
    (state : State) (first : Bytes) (rest : List Bytes) : Handled State :=
  relayMessage (process accepts) interrupted stack state first rest

end Forwarder

namespace Bridge

structure State where
  msgMeta : MsgMeta
  globalTime : UInt64
  tracker : DeviceTracker
  received : Traffic
  decompressed : Traffic
  droppedMessagesCount : ℕ

def State.count (state : State) (fromCompressor : Bool) (msgBytes : ℕ) : State :=
  if fromCompressor then { state with decompressed := state.decompressed.record msgBytes }
  else { state with received := state.received.record msgBytes }

/-- Compressed messages go to the decompressors. The tracker is given the meta information of the
outgoing message, not that of the received one. -/
def process (fromCompressor accepts : Bool) (state : State) (parts : ℕ → Bytes) (hasMeta : Bool) :
    Handled State :=
  let m := receivedMeta parts hasMeta
  let msgMeta := { state.msgMeta with
    createdMs := createdMs m state.globalTime
    compressionMethod := m.compressionMethod }
  let state := state.count fromCompressor (parts 2).length
  if m.compressionMethod ≠ 0 then
    let p := publishOnZmqTransport parts msgMeta accepts
    ⟨metaAndBody hasMeta ++ p.events,{ state with msgMeta := msgMeta },p.emitted .compressorInput⟩
  else
    let msgMeta := { msgMeta with sequenceNumber := msgMeta.sequenceNumber+1 }
    let tracker := (deviceTrackerCalculateGap state.tracker msgMeta (pubSpec parts)).1
    let state := { state with msgMeta := msgMeta, tracker := tracker }
    if isHeartbeat parts then ⟨metaAndBody hasMeta ++ heartbeatAccesses parts,state,[]⟩
    else
      let p := publishOnZmqTransport parts msgMeta accepts
      ⟨metaAndBody hasMeta ++ (heartbeatAccesses parts ++ p.events),
        { state with droppedMessagesCount := countDrop accepts state.droppedMessagesCount },
        p.emitted .publisher⟩

def readZmqMessageAndForward (fromCompressor accepts : Bool) (interrupted : ℕ → Bool)
    (stack : ℕ → Bytes) (state : State) (first : Bytes) (rest : List Bytes) : Handled State :=
  relayMessage (process fromCompressor accepts) interrupted stack state first rest

end Bridge

/-! The handlers only look at the parts. -/

/-- Events that look at one of the four parts. -/
def Accesses (events : List PartEvent) : Prop := ∀ event ∈ events, ∃ i ≤ 3, event = .access (.part i)

lemma Accesses.append {a b : List PartEvent} (ha : Accesses a) (hb : Accesses b) : Accesses (a ++ b) := by
  intro event he
  rcases List.mem_append.mp he with he | he
  · exact ha event he
  · exact hb event he

lemma accesses_metaAndBody (hasMeta : Bool) : Accesses (metaAndBody hasMeta) := by
  cases hasMeta <;> simp [Accesses,metaAndBody]

lemma accesses_heartbeatAccesses (parts : ℕ → Bytes) : Accesses (heartbeatAccesses parts) := by
  unfold heartbeatAccesses
  split <;> simp [Accesses]

lemma accesses_publishOnZmqTransport (parts : ℕ → Bytes) (m : MsgMeta) (accepts : Bool) :
    Accesses (publishOnZmqTransport parts m accepts).events := by
  unfold publishOnZmqTransport
  split <;> simp [Accesses]

lemma Device.onlyAccesses (compressionMethod : UInt8) (fromCompressor accepts : Bool) :
    OnlyAccesses (Device.process compressionMethod fromCompressor accepts) := by
  intro state parts hasMeta
  simp only [Device.process]
  split
  · exact (accesses_metaAndBody hasMeta).append (accesses_publishOnZmqTransport parts _ accepts)
  · exact (accesses_metaAndBody hasMeta).append (accesses_publishOnZmqTransport parts _ accepts)

lemma Forwarder.onlyAccesses (accepts : Bool) : OnlyAccesses (Forwarder.process accepts) := by
  intro state parts hasMeta
  simp only [Forwarder.process]
  split
  · exact (accesses_metaAndBody hasMeta).append (accesses_heartbeatAccesses parts)
  · exact (accesses_metaAndBody hasMeta).append
      ((accesses_heartbeatAccesses parts).append (accesses_publishOnZmqTransport parts _ accepts))

lemma Bridge.onlyAccesses (fromCompressor accepts : Bool) :
    OnlyAccesses (Bridge.process fromCompressor accepts) := by
  intro state parts hasMeta
  simp only [Bridge.process]
  split
  · exact (accesses_metaAndBody hasMeta).append (accesses_publishOnZmqTransport parts _ accepts)
  · split
    · exact (accesses_metaAndBody hasMeta).append (accesses_heartbeatAccesses parts)
    · exact (accesses_metaAndBody hasMeta).append
        ((accesses_heartbeatAccesses parts).append (accesses_publishOnZmqTransport parts _ accepts))

/-- The relays survive exactly the messages of at most four frames that they receive without being
interrupted. -/
theorem readZmqMessageAndForward_survives_iff (interrupted : ℕ → Bool) (stack : ℕ → Bytes)
    (first : Bytes) (rest : List Bytes) (compressionMethod : UInt8) (fromCompressor accepts : Bool)
    (device : Device.State) (forwarder : Forwarder.State) (bridge : Bridge.State) :
    (Survives interrupted device first rest (·.msgMeta.sequenceNumber)
        (Device.readZmqMessageAndForward compressionMethod fromCompressor accepts interrupted stack
          device first rest) ↔
      (first::rest).length ≤ 4 ∧ ∀ i < (first::rest).length, interrupted i = false) ∧
    (Survives interrupted forwarder first rest (·.msgMeta.sequenceNumber)
        (Forwarder.readZmqMessageAndForward accepts interrupted stack forwarder first rest) ↔
      (first::rest).length ≤ 4 ∧ ∀ i < (first::rest).length, interrupted i = false) ∧
    (Survives interrupted bridge first rest (·.msgMeta.sequenceNumber)
        (Bridge.readZmqMessageAndForward fromCompressor accepts interrupted stack bridge first rest) ↔
      (first::rest).length ≤ 4 ∧ ∀ i < (first::rest).length, interrupted i = false) := by
  refine ⟨?_,?_,?_⟩
  · exact survives_iff (Device.onlyAccesses compressionMethod fromCompressor accepts) _
  · exact survives_iff (Forwarder.onlyAccesses accepts) _
  · exact survives_iff (Bridge.onlyAccesses fromCompressor accepts) _

def Device.sampleState : Device.State := ⟨{ metaInfoEmpty with deviceNumber := 1 },1,.none,.none⟩
def Forwarder.sampleState : Forwarder.State := ⟨metaInfoEmpty,1,deviceTrackerNew,.none,0⟩
def Bridge.sampleState : Bridge.State := ⟨metaInfoEmpty,1,deviceTrackerNew,.none,.none,0⟩

/-- The clean-up after a message of five frames closes a part beyond the array. -/
lemma close_beyond {σ : Type} (process : σ → (ℕ → Bytes) → Bool → Handled σ) (state : σ)
    (sequenceNumber : σ → UInt64) (a b c d e : Bytes) :
    ¬Survives (fun _ => false) state a [b,c,d,e] sequenceNumber
      (relayMessage process (fun _ => false) (fun _ => []) state a [b,c,d,e]) := by
  intro h
  have hclose : PartEvent.close (.part 4) ∈
      (relayMessage process (fun _ => false) (fun _ => []) state a [b,c,d,e]).events := by
    rw [relayMessage_eq fun _ _ => rfl]
    exact List.mem_append_right _ (List.mem_append_right _ (mem_cleanup.mpr ⟨4,le_rfl,rfl⟩))
  exact absurd (h.bounds _ hclose 4 rfl) (by omega)

theorem readZmqMessageAndForward_five_frames :
    ¬Survives (fun _ => false) Device.sampleState [1] [[2],[3],[4],[5]] (·.msgMeta.sequenceNumber)
        (Device.readZmqMessageAndForward noCompression false true (fun _ => false) (fun _ => [])
          Device.sampleState [1] [[2],[3],[4],[5]]) ∧
      ¬Survives (fun _ => false) Forwarder.sampleState [1] [[2],[3],[4],[5]] (·.msgMeta.sequenceNumber)
        (Forwarder.readZmqMessageAndForward true (fun _ => false) (fun _ => [])
          Forwarder.sampleState [1] [[2],[3],[4],[5]]) ∧
      ¬Survives (fun _ => false) Bridge.sampleState [1] [[2],[3],[4],[5]] (·.msgMeta.sequenceNumber)
        (Bridge.readZmqMessageAndForward false true (fun _ => false) (fun _ => [])
          Bridge.sampleState [1] [[2],[3],[4],[5]]) :=
  ⟨close_beyond _ _ _ _ _ _ _ _,close_beyond _ _ _ _ _ _ _ _,close_beyond _ _ _ _ _ _ _ _⟩

end Logjam.Relay
