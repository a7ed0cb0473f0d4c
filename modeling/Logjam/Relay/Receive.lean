import Logjam.Util.MetaInfo

/-! The frame of the message handlers of the device, the forwarder and the bridge: one counter is
the index of the part that is received, the number of parts, and the index of the clean-up loop. -/
namespace Logjam.Relay

/-- A zmq_msg_t of a handler: an element of message_parts, or the dummy of one round. -/
inductive Slot
  | part (i : ℕ)
  | dummy (i : ℕ)
  deriving DecidableEq

inductive PartEvent
  | init (slot : Slot)
  | receive (slot : Slot)
  | access (slot : Slot)
  | close (slot : Slot)
  deriving DecidableEq

def PartEvent.slot : PartEvent → Slot
  | .init s => s
  | .receive s => s
  | .access s => s
  | .close s => s

/-- One round of the receive loop. -/
def receivePart (i : ℕ) : List PartEvent :=
  if 3 < i then [.init (.dummy i),.receive (.dummy i),.close (.dummy i)]
  else [.init (.part i),.receive (.part i)]

/-- The counter after the receive loop, and the frames that are left on the socket. -/
structure Reception where
  events : List PartEvent
  last : ℕ
  left : List Bytes

/-- The loop from one value of the counter on. The flag zsys_interrupted is looked at before every
part, and may have been set by then. -/
def receiveParts (interrupted : ℕ → Bool) : ℕ → Bytes → List Bytes → Reception
  | i,frame,[] => if interrupted i then ⟨[],i,[frame]⟩ else ⟨receivePart i,i,[]⟩
  | i,frame,next::rest =>
    if interrupted i then ⟨[],i,frame::next::rest⟩
    else
      let r := receiveParts interrupted (i+1) next rest
      { r with events := receivePart i ++ r.events }

/-- The contents of message_parts; a part that has not been received is whatever the stack holds. -/
def messageParts (frames left : List Bytes) (stack : ℕ → Bytes) (i : ℕ) : Bytes :=
  (frames.take (frames.length-left.length)).getD i (stack i)

def cleanup (last : ℕ) : List PartEvent := (List.range (last+1)).reverse.map fun i => .close (.part i)

inductive Socket
  | publisher
  | compressorInput
  deriving DecidableEq

structure Sent where
  socket : Socket
  frames : List Bytes
  deriving DecidableEq

/-- What a handler does to the message parts, and its state and output afterwards. -/
structure Handled (σ : Type) where
  events : List PartEvent
  state : σ
  emitted : List Sent

/-- What a socket has taken of a message; with a full queue the first part is refused. -/
structure Publication where
  events : List PartEvent
  frames : Option (List Bytes)

def publishOnZmqTransport (parts : ℕ → Bytes) (m : MsgMeta) (accepts : Bool) : Publication :=
  if accepts then
    ⟨[.access (.part 0),.access (.part 1),.access (.part 2)],
      some [parts 0,parts 1,parts 2,msgAddMetaInfo m]⟩
  else ⟨[.access (.part 0)],none⟩

def Publication.emitted (p : Publication) (socket : Socket) : List Sent :=
  (p.frames.map (Sent.mk socket)).toList

section
variable {σ : Type} (process : σ → (ℕ → Bytes) → Bool → Handled σ) (interrupted : ℕ → Bool)
  (stack : ℕ → Bytes) (state : σ) (first : Bytes) (rest : List Bytes)

/-- The check of the counter; the fourth part is the meta frame. -/
def dispatch (parts : ℕ → Bytes) (last : ℕ) : Handled σ :=
  if last < 2 ∨ 3 < last then ⟨[],state,[]⟩ else process state parts (last == 3)

/-- The common frame of the three handlers; they differ in what they do with three or four parts. -/
def relayMessage : Handled σ :=
  let r := receiveParts interrupted 0 first rest
  let handled := dispatch process state (messageParts (first::rest) r.left stack) r.last
  { handled with events := r.events ++ (handled.events ++ cleanup r.last) }

/-- What is asked of a handler: it consumes the frames of its message, stays within message_parts,
closes what it has initialised, and drops messages that are too short or too long. -/
structure Survives (sequenceNumber : σ → UInt64) (handled : Handled σ) : Prop where
  consumed : (receiveParts interrupted 0 first rest).left = []
  bounds : ∀ event ∈ handled.events, ∀ i, event.slot = .part i → i ≤ 3
  closed : ∀ slot, handled.events.count (.close slot) = if .init slot ∈ handled.events then 1 else 0
  dropped : (first::rest).length < 3 ∨ 4 < (first::rest).length →
    handled.emitted = [] ∧ sequenceNumber handled.state = sequenceNumber state

end

/-! The receive loop. -/

variable {interrupted : ℕ → Bool}

theorem receiveParts_eq {i : ℕ} {first : Bytes} {rest : List Bytes}
    (h : ∀ j, i ≤ j → j ≤ i+rest.length → interrupted j = false) :
    receiveParts interrupted i first rest =
      ⟨(List.range' i (rest.length+1)).flatMap receivePart,i+rest.length,[]⟩ := by
  induction rest generalizing i first with
  | nil =>
    have hi := h i le_rfl (Nat.le_add_right i 0)
    simp [receiveParts,hi]
  | cons next rest ih =>
    have hi := h i le_rfl (Nat.le_add_right i _)
    have hrest : ∀ j, i+1 ≤ j → j ≤ i+1+rest.length → interrupted j = false := by
      intro j hj hle
      apply h j (by omega)
      rw [List.length_cons]
      omega
    rw [receiveParts,hi,ih hrest]
    simp only [Bool.false_eq_true,if_false,List.length_cons,List.range'_succ (n := rest.length+1),
      List.flatMap_cons,Reception.mk.injEq,true_and,and_true]
    omega

/-- Frames are left behind when the flag is found set. -/
theorem interrupted_eq_false {i : ℕ} {first : Bytes} {rest : List Bytes}
    (h : (receiveParts interrupted i first rest).left = []) {j : ℕ} (hj : i ≤ j)
    (hle : j ≤ i+rest.length) : interrupted j = false := by
  induction rest generalizing i first with
  | nil =>
    obtain rfl : i = j := by simp at hle; omega
    by_contra hint
    simp [receiveParts,Bool.eq_true_of_not_eq_false hint] at h
  | cons next rest ih =>
    by_cases hi : interrupted i = true
    · simp [receiveParts,hi] at h
    · rw [receiveParts,if_neg hi] at h
      rcases Nat.eq_or_lt_of_le hj with rfl | hlt
      · exact Bool.eq_false_iff.mpr hi
      · rw [List.length_cons] at hle
        exact ih h hlt (by omega)

/-! The clean-up loop. -/

lemma mem_cleanup {last : ℕ} {event : PartEvent} :
    event ∈ cleanup last ↔ ∃ i ≤ last, event = .close (.part i) := by
  simp only [cleanup,List.mem_map,List.mem_reverse,List.mem_range]
  constructor
  · rintro ⟨i,hi,rfl⟩
    exact ⟨i,by omega,rfl⟩
  · rintro ⟨i,hi,rfl⟩
    exact ⟨i,by omega,rfl⟩

lemma nodup_cleanup (last : ℕ) : (cleanup last).Nodup := by
  apply List.Nodup.map
  · intro i j h
    exact Slot.part.inj (PartEvent.close.inj h)
  · exact List.nodup_reverse.mpr List.nodup_range

/-- The parts of a message that fits into message_parts. -/
lemma mem_received {k : ℕ} (hk : k ≤ 4) {event : PartEvent} :
    event ∈ (List.range' 0 k).flatMap receivePart ↔
      ∃ i < k, event = .init (.part i) ∨ event = .receive (.part i) := by
  simp only [List.mem_flatMap,List.mem_range'_1]
  constructor
  · rintro ⟨i,hi,he⟩
    rw [receivePart,if_neg (by omega)] at he
    exact ⟨i,by omega,by simpa using he⟩
  · rintro ⟨i,hi,he⟩
    refine ⟨i,by omega,?_⟩
    rw [receivePart,if_neg (by omega)]
    simpa using he

/-- Parts that are received, looked at and cleaned up are closed once each, and no others. -/
theorem count_close {n : ℕ} (hn : n ≤ 3) {accesses : List PartEvent}
    (hacc : ∀ event ∈ accesses, ∃ i ≤ 3, event = .access (.part i)) (slot : Slot) :
    ((List.range' 0 (n+1)).flatMap receivePart ++ (accesses ++ cleanup n)).count (.close slot) =
      if .init slot ∈ (List.range' 0 (n+1)).flatMap receivePart ++ (accesses ++ cleanup n) then 1 else 0 := by
  have hreceived : PartEvent.close slot ∉ (List.range' 0 (n+1)).flatMap receivePart := by
    intro h
    obtain ⟨i,_,hi | hi⟩ := (mem_received (by omega)).mp h <;> cases hi
  have haccess : PartEvent.close slot ∉ accesses := by
    intro h
    obtain ⟨i,_,hi⟩ := hacc _ h
    cases hi
  have hinit : PartEvent.init slot ∈ (List.range' 0 (n+1)).flatMap receivePart ++ (accesses ++ cleanup n) ↔
      PartEvent.close slot ∈ cleanup n := by
    constructor
    · intro h
      rcases List.mem_append.mp h with h | h
      · obtain ⟨i,hi,he | he⟩ := (mem_received (by omega)).mp h
        · exact mem_cleanup.mpr ⟨i,by omega,by rw [PartEvent.init.inj he]⟩
        · cases he
      · rcases List.mem_append.mp h with h | h
        · obtain ⟨i,_,hi⟩ := hacc _ h
          cases hi
        · obtain ⟨i,_,hi⟩ := mem_cleanup.mp h
          cases hi
    · intro h
      obtain ⟨i,hi,he⟩ := mem_cleanup.mp h
      refine List.mem_append_left _ ((mem_received (by omega)).mpr ⟨i,by omega,.inl ?_⟩)
      rw [PartEvent.close.inj he]
  rw [List.count_append,List.count_append,List.count_eq_zero.mpr hreceived,
    List.count_eq_zero.mpr haccess,(nodup_cleanup n).count]
  simp only [hinit,Nat.zero_add]

/-- Parts that are received, looked at and cleaned up are in message_parts. -/
lemma slot_le_three {n : ℕ} (hn : n ≤ 3) {accesses : List PartEvent}
    (hacc : ∀ event ∈ accesses, ∃ i ≤ 3, event = .access (.part i)) {event : PartEvent}
    (he : event ∈ (List.range' 0 (n+1)).flatMap receivePart ++ (accesses ++ cleanup n)) {i : ℕ}
    (hslot : event.slot = .part i) : i ≤ 3 := by
  rcases List.mem_append.mp he with he | he
  · obtain ⟨j,hj,rfl | rfl⟩ := (mem_received (by omega)).mp he
    all_goals
      obtain rfl := Slot.part.inj hslot
      omega
  · rcases List.mem_append.mp he with he | he
    · obtain ⟨j,hj,rfl⟩ := hacc event he
      obtain rfl := Slot.part.inj hslot
      exact hj
    · obtain ⟨j,hj,rfl⟩ := mem_cleanup.mp he
      obtain rfl := Slot.part.inj hslot
      omega

section
variable {σ : Type} {process : σ → (ℕ → Bytes) → Bool → Handled σ} {stack : ℕ → Bytes} {state : σ}
  {first : Bytes} {rest : List Bytes}

/-- Between receiving and cleaning up, a handler only looks at message parts. -/
def OnlyAccesses (process : σ → (ℕ → Bytes) → Bool → Handled σ) : Prop :=
  ∀ state parts hasMeta, ∀ event ∈ (process state parts hasMeta).events,
    ∃ i ≤ 3, event = .access (.part i)

lemma OnlyAccesses.dispatch (h : OnlyAccesses process) (state : σ) (parts : ℕ → Bytes) (last : ℕ) :
    ∀ event ∈ (dispatch process state parts last).events, ∃ i ≤ 3, event = .access (.part i) := by
  intro event he
  unfold Relay.dispatch at he
  split at he
  · cases he
  · exact h state parts _ event he

/-- Without interruption, the handler sees all parts. -/
theorem relayMessage_eq (hint : ∀ i < (first::rest).length, interrupted i = false) :
    relayMessage process interrupted stack state first rest =
      { dispatch process state (messageParts (first::rest) [] stack) rest.length with
        events := (List.range' 0 (rest.length+1)).flatMap receivePart ++
          ((dispatch process state (messageParts (first::rest) [] stack) rest.length).events ++
            cleanup rest.length) } := by
  have hr : receiveParts interrupted 0 first rest =
      ⟨(List.range' 0 (rest.length+1)).flatMap receivePart,0+rest.length,[]⟩ := by
    apply receiveParts_eq
    intro j _ hle
    apply hint
    rw [List.length_cons]
    omega
  rw [relayMessage,hr]
  simp only [Nat.zero_add]

/-- A handler of this frame survives a message exactly if the message has at most four parts and
the handler is not interrupted before it has received them. -/
theorem survives_iff (hp : OnlyAccesses process) (sequenceNumber : σ → UInt64) :
    Survives interrupted state first rest sequenceNumber
        (relayMessage process interrupted stack state first rest) ↔
      (first::rest).length ≤ 4 ∧ ∀ i < (first::rest).length, interrupted i = false := by
  constructor
  · intro h
    have hint : ∀ i < (first::rest).length, interrupted i = false := by
      intro i hi
      rw [List.length_cons] at hi
      exact interrupted_eq_false h.consumed (Nat.zero_le i) (by omega)
    refine ⟨?_,hint⟩
    have hclose : PartEvent.close (.part rest.length) ∈
        (relayMessage process interrupted stack state first rest).events := by
      rw [relayMessage_eq hint]
      exact List.mem_append_right _ (List.mem_append_right _ (mem_cleanup.mpr ⟨_,le_rfl,rfl⟩))
    have hle := h.bounds _ hclose rest.length rfl
    rw [List.length_cons]
    omega
  · rintro ⟨hlen,hint⟩
    have hk : rest.length+1 ≤ 4 := hlen
    have hacc := hp.dispatch state (messageParts (first::rest) [] stack) rest.length
    rw [relayMessage_eq hint]
    refine ⟨?_,?_,?_,?_⟩
    · rw [receiveParts_eq fun j _ hle => hint j (by rw [List.length_cons]; omega)]
    · exact fun event he i hslot => slot_le_three (by omega) hacc he hslot
    · exact count_close (by omega) hacc
    · intro hdrop
      have hcounter : rest.length < 2 ∨ 3 < rest.length := by
        rw [List.length_cons] at hdrop
        omega
      simp only [dispatch,if_pos hcounter,true_and]

end

end Logjam.Relay
