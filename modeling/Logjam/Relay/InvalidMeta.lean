import Logjam.Relay.Numbering

/-! What the fourth frame can do to the relays. They take the meta information from every frame of
the right size, whether its tag and its version are right or not. -/
namespace Logjam.Relay

/-- Two messages are handled alike: the same is sent, and the states are the same in what can be
observed of them. -/
def Agree {σ : Type} (observed : σ → σ) (a b : Handled σ) : Prop :=
  a.emitted = b.emitted ∧ observed a.state = observed b.state

/-- The time and the method in the global meta struct are set anew for every message. -/
def lasting (m : MsgMeta) : MsgMeta := { m with createdMs := 0, compressionMethod := 0 }

def Device.State.observed (state : Device.State) : Device.State :=
  { state with msgMeta := lasting state.msgMeta }

def Forwarder.State.observed (state : Forwarder.State) : Forwarder.State :=
  { state with msgMeta := lasting state.msgMeta }

def Bridge.State.observed (state : Bridge.State) : Bridge.State :=
  { state with msgMeta := lasting state.msgMeta }

/-- The time taken from the frame is the one that a message without the frame gets. -/
def SameTime (m : MsgMeta) (globalTime : UInt64) : Prop := m.createdMs = 0 ∨ m.createdMs = globalTime

/-- The tracker has nothing to change. -/
def Tracked (tracker : DeviceTracker) (m : MsgMeta) (spec : Option Bytes) : Prop :=
  m.deviceNumber = 0 ∨ ∃ info, tracker.seenDevices[m.deviceNumber]? = some info ∧
    info.sequenceNumber = m.sequenceNumber ∧ info.credit = initialHeartbeatCredit ∧
    spec.or info.pubSpec = info.pubSpec

lemma createdMs_eq_iff (m : MsgMeta) (globalTime : UInt64) :
    createdMs m globalTime = globalTime ↔ SameTime m globalTime := by
  unfold createdMs SameTime
  split
  · rename_i h
    simp [h]
  · rename_i h
    simp [not_not.mp h]

lemma sequenceGap_self (a : UInt64) : sequenceGap a a = 0 := by
  unfold sequenceGap
  rw [UInt64.sub_self]
  rfl

lemma insert_eq_self_iff {tracker : DeviceTracker} {device : UInt32} {info : DeviceInfo} :
    (⟨tracker.seenDevices.insert device info⟩ : DeviceTracker) = tracker ↔
      tracker.seenDevices[device]? = some info := by
  constructor
  · intro h
    rw [← h]
    simp
  · intro h
    have hmap : tracker.seenDevices.insert device info = tracker.seenDevices := by
      apply Std.ExtTreeMap.ext_getElem?
      intro d
      rw [getElem?_seenDevices_insert]
      split
      · rename_i hd
        rw [← hd,h]
      · rfl
    rw [hmap]

theorem deviceTrackerCalculateGap_eq_self_iff (tracker : DeviceTracker) (m : MsgMeta) (spec : Option Bytes) :
    (deviceTrackerCalculateGap tracker m spec).1 = tracker ↔ Tracked tracker m spec := by
  unfold deviceTrackerCalculateGap Tracked
  by_cases hd : m.deviceNumber = 0
  · simp [hd]
  · rw [if_neg hd,or_iff_right hd]
    cases hinfo : tracker.seenDevices[m.deviceNumber]? with
    | none => simp [insert_eq_self_iff,hinfo]
    | some info =>
      simp only [insert_eq_self_iff,hinfo,Option.some.injEq,exists_eq_left']
      constructor
      · intro h
        exact ⟨congrArg DeviceInfo.sequenceNumber h,congrArg DeviceInfo.credit h,
          (congrArg DeviceInfo.pubSpec h).symm⟩
      · rintro ⟨hs,hc,hp⟩
        rw [← hs,sequenceGap_self,hp,← hc,UInt64.add_zero]

/-! The handlers on three and on four frames. -/

section
variable {σ : Type} (process : σ → (ℕ → Bytes) → Bool → Handled σ) (stack : ℕ → Bytes) (state : σ)
  (stream topic body frame : Bytes)

def fourParts : ℕ → Bytes := messageParts [stream,topic,body,frame] [] stack
def threeParts : ℕ → Bytes := messageParts [stream,topic,body] [] stack

lemma agree_relayMessage_iff (observed : σ → σ) :
    Agree observed (relayMessage process (fun _ => false) stack state stream [topic,body,frame])
        (relayMessage process (fun _ => false) stack state stream [topic,body]) ↔
      Agree observed (process state (fourParts stack stream topic body frame) true)
        (process state (threeParts stack stream topic body) false) := by
  obtain ⟨hstate,hemitted⟩ := relayMessage_complete process state
    (r := ⟨fun _ => false,stack,stream,[topic,body,frame]⟩) (show ¬(3 < 2 ∨ 3 < 3) by decide)
  obtain ⟨hstate',hemitted'⟩ := relayMessage_complete process state
    (r := ⟨fun _ => false,stack,stream,[topic,body]⟩) (show ¬(2 < 2 ∨ 3 < 2) by decide)
  unfold Agree
  rw [hstate,hemitted,hstate',hemitted']
  rfl

end

lemma msgAddMetaInfo_tag (m : MsgMeta) (tag : UInt16) :
    msgAddMetaInfo { m with tag := tag } = msgAddMetaInfo m := by
  have hencode : metaInfoEncode { m with tag := tag } = metaInfoEncode m := rfl
  rw [msgAddMetaInfo,hencode,msgAddMetaInfo]

/-- The tag is the only field that is not taken over into the frame. -/
lemma msgAddMetaInfo_eq_iff (m m' : MsgMeta) : msgAddMetaInfo m = msgAddMetaInfo m' ↔
    { m with tag := metaInfoTag } = { m' with tag := metaInfoTag } := by
  constructor
  · intro h
    rw [← decodedMeta_msgAddMetaInfo,← decodedMeta_msgAddMetaInfo,h]
  · intro h
    rw [← msgAddMetaInfo_tag m metaInfoTag,h,msgAddMetaInfo_tag]

/-- What is sent can only differ in the meta frame. -/
lemma emitted_eq_iff {parts parts' : ℕ → Bytes} (h : ∀ i ≤ 2, parts i = parts' i) (m m' : MsgMeta)
    (accepts : Bool) (socket : Socket) :
    (publishOnZmqTransport parts m accepts).emitted socket =
        (publishOnZmqTransport parts' m' accepts).emitted socket ↔
      accepts = false ∨ { m with tag := metaInfoTag } = { m' with tag := metaInfoTag } := by
  cases accepts with
  | false => simp [publishOnZmqTransport,Publication.emitted]
  | true => simp [publishOnZmqTransport,Publication.emitted,h,msgAddMetaInfo_eq_iff]

lemma fourParts_eq (stack : ℕ → Bytes) (stream topic body frame : Bytes) :
    ∀ i ≤ 2, fourParts stack stream topic body frame i = threeParts stack stream topic body i := by
  intro i hi
  interval_cases i <;> rfl

section
variable (stack : ℕ → Bytes) (stream topic body frame : Bytes)

lemma receivedMeta_fourParts : receivedMeta (fourParts stack stream topic body frame) true =
    (zmqMsgExtractMetaInfo frame metaInfoEmpty).2 := rfl

lemma receivedMeta_threeParts :
    receivedMeta (threeParts stack stream topic body) false = metaInfoEmpty := rfl

lemma isHeartbeat_fourParts :
    isHeartbeat (fourParts stack stream topic body frame) = (stream == lit "heartbeat") := rfl

lemma isHeartbeat_threeParts :
    isHeartbeat (threeParts stack stream topic body) = (stream == lit "heartbeat") := rfl

end

lemma createdMs_metaInfoEmpty (globalTime : UInt64) : createdMs metaInfoEmpty globalTime = globalTime := rfl

lemma compressionMethod_metaInfoEmpty : metaInfoEmpty.compressionMethod = 0 := rfl

namespace Device

/-- Meta information that makes no difference. -/
def Harmless (compressionMethod : UInt8) (accepts : Bool) (state : State) (m : MsgMeta) : Prop :=
  m.compressionMethod = 0 ∧ SameTime m state.globalTime ∨
    accepts = false ∧ (m.compressionMethod = 0 ∨ compressionMethod = 0)

theorem agree_process_iff (compressionMethod : UInt8) (fromCompressor accepts : Bool) (state : State)
    (stack : ℕ → Bytes) (stream topic body frame : Bytes) :
    Agree State.observed
        (process compressionMethod fromCompressor accepts state (fourParts stack stream topic body frame) true)
        (process compressionMethod fromCompressor accepts state (threeParts stack stream topic body) false) ↔
      Harmless compressionMethod accepts state (zmqMsgExtractMetaInfo frame metaInfoEmpty).2 := by
  have hparts := fourParts_eq stack stream topic body frame
  unfold Agree Harmless
  rw [← createdMs_eq_iff]
  simp only [process,receivedMeta_fourParts,receivedMeta_threeParts,createdMs_metaInfoEmpty,
    compressionMethod_metaInfoEmpty,hparts 2 le_rfl]
  generalize (zmqMsgExtractMetaInfo frame metaInfoEmpty).2 = m
  by_cases hk : compressionMethod = 0
  -- both messages are published
  · rw [if_neg (fun h => h.1 hk),if_neg (fun h => h.1 hk)]
    simp [emitted_eq_iff hparts,State.observed,lasting,hk,or_comm]
  · by_cases hm0 : m.compressionMethod = 0
    -- both messages go to the compressors
    · rw [if_pos ⟨hk,hm0⟩,if_pos ⟨hk,trivial⟩]
      simp [emitted_eq_iff hparts,State.observed,lasting,hm0,or_comm]
    -- only the message without the frame goes to the compressors, and takes no number
    · rw [if_neg (fun h => hm0 h.2),if_pos ⟨hk,trivial⟩]
      simp [State.observed,lasting,hm0,hk]

end Device

namespace Forwarder

def Harmless (accepts : Bool) (state : State) (stream topic : Bytes) (m : MsgMeta) : Prop :=
  Tracked state.tracker m (if stream = lit "heartbeat" then some (cstr topic) else none) ∧
    (stream = lit "heartbeat" ∨ accepts = false ∨
      m.compressionMethod = 0 ∧ SameTime m state.globalTime)

theorem agree_process_iff (accepts : Bool) (state : State) (stack : ℕ → Bytes)
    (stream topic body frame : Bytes) :
    Agree State.observed (process accepts state (fourParts stack stream topic body frame) true)
        (process accepts state (threeParts stack stream topic body) false) ↔
      Harmless accepts state stream topic (zmqMsgExtractMetaInfo frame metaInfoEmpty).2 := by
  have hparts := fourParts_eq stack stream topic body frame
  have hspec : pubSpec (fourParts stack stream topic body frame) =
      if stream = lit "heartbeat" then some (cstr topic) else none := by
    simp only [pubSpec,isHeartbeat_fourParts,beq_iff_eq]
    rfl
  have htracker : (deviceTrackerCalculateGap state.tracker metaInfoEmpty
      (pubSpec (threeParts stack stream topic body))).1 = state.tracker := rfl
  unfold Agree Harmless
  rw [← createdMs_eq_iff,← deviceTrackerCalculateGap_eq_self_iff]
  simp only [process,receivedMeta_fourParts,receivedMeta_threeParts,createdMs_metaInfoEmpty,
    compressionMethod_metaInfoEmpty,hparts 2 le_rfl,isHeartbeat_fourParts,isHeartbeat_threeParts,hspec,
    htracker]
  generalize (zmqMsgExtractMetaInfo frame metaInfoEmpty).2 = m
  by_cases hs : stream = lit "heartbeat"
  · rw [if_pos (beq_iff_eq.mpr hs),if_pos (beq_iff_eq.mpr hs)]
    simp [State.observed,lasting,hs]
  · rw [if_neg (fun h => hs (beq_iff_eq.mp h)),if_neg (fun h => hs (beq_iff_eq.mp h))]
    simp [emitted_eq_iff hparts,State.observed,lasting,hs,and_comm]

end Forwarder

namespace Bridge

def Harmless (accepts : Bool) (state : State) (stream : Bytes) (m : MsgMeta) : Prop :=
  m.compressionMethod = 0 ∧ (stream = lit "heartbeat" ∨ accepts = false ∨ SameTime m state.globalTime)

/-- The tracker looks at the numbers only. -/
lemma tracker_numbered (state : State) (m : MsgMeta) (spec : Option Bytes) :
    deviceTrackerCalculateGap state.tracker (numbered state m) spec =
      deviceTrackerCalculateGap state.tracker (numbered state metaInfoEmpty) spec := by
  simp only [deviceTrackerCalculateGap,numbered,stamped]
  rfl

lemma lasting_numbered (state : State) (m : MsgMeta) :
    lasting (numbered state m) = lasting (numbered state metaInfoEmpty) := rfl

theorem agree_process_iff (fromCompressor accepts : Bool) (state : State) (stack : ℕ → Bytes)
    (stream topic body frame : Bytes) :
    Agree State.observed (process fromCompressor accepts state (fourParts stack stream topic body frame) true)
        (process fromCompressor accepts state (threeParts stack stream topic body) false) ↔
      Harmless accepts state stream (zmqMsgExtractMetaInfo frame metaInfoEmpty).2 := by
  have hparts := fourParts_eq stack stream topic body frame
  have hm := receivedMeta_fourParts stack stream topic body frame
  have hspec : pubSpec (fourParts stack stream topic body frame) =
      pubSpec (threeParts stack stream topic body) := rfl
  have hempty : (receivedMeta (threeParts stack stream topic body) false).compressionMethod = 0 := rfl
  generalize (zmqMsgExtractMetaInfo frame metaInfoEmpty).2 = m at hm ⊢
  unfold Agree Harmless
  rw [← createdMs_eq_iff]
  by_cases hm0 : m.compressionMethod = 0
  · have hplain : (receivedMeta (fourParts stack stream topic body frame) true).compressionMethod = 0 := by
      rwa [hm]
    by_cases hs : stream = lit "heartbeat"
    · obtain ⟨he,hstate⟩ := process_heartbeat fromCompressor accepts state hempty (beq_iff_eq.mpr hs)
      obtain ⟨he',hstate'⟩ := process_heartbeat fromCompressor accepts state hplain (beq_iff_eq.mpr hs)
      rw [he,he',hstate,hstate',hspec,hparts 2 le_rfl,State.observed,State.observed]
      simp only [tracker_numbered state (receivedMeta _ _),lasting_numbered state (receivedMeta _ _)]
      exact iff_of_true ⟨trivial,trivial⟩ ⟨hm0,.inl hs⟩
    · obtain ⟨he,hstate⟩ :=
        process_data fromCompressor accepts state hempty (fun h => hs (beq_iff_eq.mp h))
      obtain ⟨he',hstate'⟩ :=
        process_data fromCompressor accepts state hplain (fun h => hs (beq_iff_eq.mp h))
      have hobserved : State.observed (process fromCompressor accepts state
            (fourParts stack stream topic body frame) true).state =
          State.observed (process fromCompressor accepts state
            (threeParts stack stream topic body) false).state := by
        rw [hstate,hstate',hspec,hparts 2 le_rfl,State.observed,State.observed]
        simp only [tracker_numbered state (receivedMeta _ _),lasting_numbered state (receivedMeta _ _)]
      rw [and_iff_left hobserved,he,he',emitted_eq_iff hparts,hm]
      simp [numbered,stamped,hm0,hs,receivedMeta_threeParts,createdMs_metaInfoEmpty,
        compressionMethod_metaInfoEmpty]
  -- the message goes to the decompressors and takes no number
  · have hcompressed : (receivedMeta (fourParts stack stream topic body frame) true).compressionMethod ≠ 0 := by
      rwa [hm]
    refine iff_of_false ?_ (fun h => hm0 h.1)
    rintro ⟨-,hobserved⟩
    have hnumber := congrArg (fun s => s.msgMeta.sequenceNumber) hobserved
    simp only [State.observed,lasting,(process_compressed fromCompressor accepts state hcompressed).2,
      process_plain fromCompressor accepts state hempty,stamped,numbered] at hnumber
    simp at hnumber

end Bridge

/-- A frame of another size is ignored. -/
lemma harmless_extract_iff {Harmless : MsgMeta → Prop} (h : Harmless metaInfoEmpty) (frame : Bytes) :
    Harmless (zmqMsgExtractMetaInfo frame metaInfoEmpty).2 ↔
      frame.length ≠ sizeofMsgMeta ∨ Harmless (decodedMeta frame) := by
  unfold zmqMsgExtractMetaInfo frameExtractMetaInfo
  split
  · rename_i hlength
    rw [or_iff_right (not_not.mpr hlength)]
    rfl
  · rename_i hlength
    exact ⟨fun _ => .inl hlength,fun _ => h⟩

/-- The fourth frame is as good as absent exactly if it has the wrong size or holds what makes no
difference; tag and version do not come into it. -/
theorem agree_without_frame_iff (stream topic body frame : Bytes) (stack : ℕ → Bytes)
    (compressionMethod : UInt8) (fromCompressor accepts : Bool) (device : Device.State)
    (forwarder : Forwarder.State) (bridge : Bridge.State) :
    (Agree Device.State.observed
        (Device.readZmqMessageAndForward compressionMethod fromCompressor accepts (fun _ => false) stack
          device stream [topic,body,frame])
        (Device.readZmqMessageAndForward compressionMethod fromCompressor accepts (fun _ => false) stack
          device stream [topic,body]) ↔
      frame.length ≠ sizeofMsgMeta ∨
        Device.Harmless compressionMethod accepts device (decodedMeta frame)) ∧
    (Agree Forwarder.State.observed
        (Forwarder.readZmqMessageAndForward accepts (fun _ => false) stack forwarder stream
          [topic,body,frame])
        (Forwarder.readZmqMessageAndForward accepts (fun _ => false) stack forwarder stream
          [topic,body]) ↔
      frame.length ≠ sizeofMsgMeta ∨
        Forwarder.Harmless accepts forwarder stream topic (decodedMeta frame)) ∧
    (Agree Bridge.State.observed
        (Bridge.readZmqMessageAndForward fromCompressor accepts (fun _ => false) stack bridge stream
          [topic,body,frame])
        (Bridge.readZmqMessageAndForward fromCompressor accepts (fun _ => false) stack bridge stream
          [topic,body]) ↔
      frame.length ≠ sizeofMsgMeta ∨
        Bridge.Harmless accepts bridge stream (decodedMeta frame)) := by
  have htime (globalTime : UInt64) : SameTime metaInfoEmpty globalTime := .inl rfl
  refine ⟨?_,?_,?_⟩
  · rw [← harmless_extract_iff (.inl ⟨rfl,htime _⟩) frame]
    exact (agree_relayMessage_iff (Device.process compressionMethod fromCompressor accepts) stack device stream
      topic body frame Device.State.observed).trans (Device.agree_process_iff _ _ _ _ _ _ _ _ _)
  · rw [← harmless_extract_iff ⟨.inl rfl,.inr (.inr ⟨rfl,htime _⟩)⟩ frame]
    exact (agree_relayMessage_iff (Forwarder.process accepts) stack forwarder stream topic body frame
      Forwarder.State.observed).trans (Forwarder.agree_process_iff _ _ _ _ _ _ _)
  · rw [← harmless_extract_iff ⟨rfl,.inr (.inr (htime _))⟩ frame]
    exact (agree_relayMessage_iff (Bridge.process fromCompressor accepts) stack bridge stream topic body frame
      Bridge.State.observed).trans (Bridge.agree_process_iff _ _ _ _ _ _ _ _)

/-- Meta information of a version to come: not valid, but its time and its method are used. -/
def newerFrame : Bytes :=
  msgAddMetaInfo { metaInfoEmpty with version := 2, compressionMethod := snappyCompression, createdMs := 7 }

theorem newerFrame_not_ignored :
    ¬ValidMeta newerFrame ∧
      (Device.readZmqMessageAndForward noCompression false true (fun _ => false) (fun _ => [])
          Device.sampleState [1] [[2],[3],newerFrame]).emitted ≠
        (Device.readZmqMessageAndForward noCompression false true (fun _ => false) (fun _ => [])
          Device.sampleState [1] [[2],[3]]).emitted ∧
      (Forwarder.readZmqMessageAndForward true (fun _ => false) (fun _ => []) Forwarder.sampleState
          [1] [[2],[3],newerFrame]).emitted ≠
        (Forwarder.readZmqMessageAndForward true (fun _ => false) (fun _ => []) Forwarder.sampleState
          [1] [[2],[3]]).emitted ∧
      (Bridge.readZmqMessageAndForward false true (fun _ => false) (fun _ => []) Bridge.sampleState
          [1] [[2],[3],newerFrame]).emitted ≠
        (Bridge.readZmqMessageAndForward false true (fun _ => false) (fun _ => []) Bridge.sampleState
          [1] [[2],[3]]).emitted := by
  decide +kernel

end Logjam.Relay
