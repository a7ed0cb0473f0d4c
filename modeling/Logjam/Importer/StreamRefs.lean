import Logjam.Library.RefCount
import Logjam.Library.Run
import Logjam.Basic.Bytes

/-! References to stream_info objects. The configured streams, the caches of the threads, the
processors, the messages between the threads and the functions that are running hold them. The
counters are atomic and do not overflow. -/
namespace Logjam.Importer.StreamRefs
open Library

/-- A stream_info object. -/
abbrev Ref := ℕ

/-- A thread with a cache. -/
abbrev Thread := ℕ

inductive Receiver
  | requestWriter
  | statsUpdater
  | indexer
  deriving Repr, DecidableEq

/-- The functions that hold a reference while they run. -/
inductive Task
  /-- processor_create. -/
  | createProcessor
  /-- logjam_message_to_gelf. -/
  | convertToGelf
  /-- The loops of the controller and the indexer over all active streams. -/
  | walkStreams
  /-- The handler of a message. -/
  | handle (receiver : Receiver)
  deriving Repr, DecidableEq

structure Streams where
  heap : Heap
  configuredStreams : List (Bytes × Ref)
  caches : List ((Thread × Bytes) × Ref)
  processors : Multiset Ref
  messages : Multiset (Receiver × Ref)
  handlers : Multiset (Task × Ref)

def Streams.initial : Streams := ⟨Heap.empty,[],[],0,0,0⟩

def Streams.holders (s : Streams) : Multiset Ref :=
  ↑(s.configuredStreams.map Prod.snd)+(↑(s.caches.map Prod.snd)+
    (s.processors+(s.messages.map Prod.snd+s.handlers.map Prod.snd)))

/-- get_stream_info: the caller gets a reference, and a new entry of the cache another one. -/
def getStreamInfo (s : Streams) (name : Bytes) (cache : Option Thread) : Streams × Option Ref :=
  match cache.bind fun thread => s.caches.lookup (thread,name) with
  | some o => ({ s with heap := s.heap.reference o },some o)
  | none =>
    match s.configuredStreams.lookup name with
    | none => (s,none)
    | some o =>
      let s := { s with heap := s.heap.reference o }
      match cache with
      | none => (s,some o)
      | some thread => ({ s with heap := s.heap.reference o, caches := ((thread,name),o)::s.caches },some o)

/-- The loop of get_streams. -/
def getStreams : Heap → List Bytes → Heap × List (Bytes × Ref)
  | heap,[] => (heap,[])
  | heap,name::names =>
    let rest := getStreams heap.alloc names
    (rest.1,(name,heap.next)::rest.2)

/-- The old table is destroyed with its entries. -/
def updateStreamConfig (s : Streams) (names : List Bytes) : Streams :=
  let streams := getStreams s.heap names
  { s with
    heap := streams.1.releaseAll (s.configuredStreams.map Prod.snd)
    configuredStreams := streams.2 }

/-- A message with a reference of its own. Not every sender releases it if the message cannot be sent. -/
def sendMessage (releaseOnFailure : Bool) (receiver : Receiver) (s : Streams) (o : Ref) (sent : Bool) : Streams :=
  let s := { s with heap := s.heap.reference o }
  if sent then { s with messages := (receiver,o) ::ₘ s.messages }
  else if releaseOnFailure then { s with heap := s.heap.release o }
  else s

/-- The processor gets the reference of processor_create. -/
def processorNew (s : Streams) (o : Ref) : Streams :=
  { s with handlers := s.handlers.erase (.createProcessor,o), processors := o ::ₘ s.processors }

/-- The end of processor_create, with the message to the indexer. -/
def newProcessor (s : Streams) (o : Ref) (sent : Bool) : Streams :=
  sendMessage true .indexer (processorNew s o) o sent

def processorAddRequest : Streams → Ref → Bool → Streams := sendMessage true .requestWriter
def processorAddJsException : Streams → Ref → Bool → Streams := sendMessage false .requestWriter
def processorAddEvent : Streams → Ref → Bool → Streams := sendMessage false .requestWriter

/-- One of the five messages of forward_updates. -/
def forwardUpdate : Streams → Ref → Bool → Streams := sendMessage true .statsUpdater

inductive StreamEvent
  | update (names : List Bytes)
  /-- A function starts and looks up a stream. -/
  | start (task : Task) (name : Bytes) (cache : Option Thread)
  /-- A function returns and releases the stream: a request is dropped or has a processor, a stream
  has been visited, a message has been converted or handled. -/
  | finish (task : Task) (o : Ref)
  /-- The body of a message to be converted is not valid JSON. -/
  | invalidJson (o : Ref)
  | newProcessor (o : Ref) (sent : Bool)
  | addRequest (o : Ref) (sent : Bool)
  | addJsException (o : Ref) (sent : Bool)
  | addEvent (o : Ref) (sent : Bool)
  | forwardUpdate (o : Ref) (sent : Bool)
  | destroyProcessor (o : Ref)
  | receive (receiver : Receiver) (o : Ref)
  /-- The cache of a thread is destroyed and replaced by an empty one. -/
  | refreshCache (thread : Thread)

/-- What the events presuppose. -/
def Possible (s : Streams) : StreamEvent → Prop
  | .update names => names.Nodup
  | .start task _ cache => (task = .createProcessor ∨ task = .convertToGelf) ∧ cache ≠ none ∨
      task = .walkStreams ∧ cache = none
  | .finish task o => (task,o) ∈ s.handlers
  | .invalidJson o => (.convertToGelf,o) ∈ s.handlers
  | .newProcessor o _ => (.createProcessor,o) ∈ s.handlers
  | .addRequest o _ | .addJsException o _ | .addEvent o _ | .forwardUpdate o _ | .destroyProcessor o => o ∈ s.processors
  | .receive receiver o => (receiver,o) ∈ s.messages
  | .refreshCache _ => True

instance (s : Streams) : (event : StreamEvent) → Decidable (Possible s event)
  | .update names => inferInstanceAs (Decidable names.Nodup)
  | .start task _ cache => inferInstanceAs (Decidable ((task = .createProcessor ∨ task = .convertToGelf) ∧ cache ≠ none ∨
      task = .walkStreams ∧ cache = none))
  | .finish task o => inferInstanceAs (Decidable ((task,o) ∈ s.handlers))
  | .invalidJson o => inferInstanceAs (Decidable ((.convertToGelf,o) ∈ s.handlers))
  | .newProcessor o _ => inferInstanceAs (Decidable ((.createProcessor,o) ∈ s.handlers))
  | .addRequest o _ | .addJsException o _ | .addEvent o _ | .forwardUpdate o _ | .destroyProcessor o =>
    inferInstanceAs (Decidable (o ∈ s.processors))
  | .receive receiver o => inferInstanceAs (Decidable ((receiver,o) ∈ s.messages))
  | .refreshCache _ => inferInstanceAs (Decidable True)

def Streams.step (s : Streams) : StreamEvent → Streams
  | .update names => updateStreamConfig s names
  | .start task name cache =>
    match getStreamInfo s name cache with
    | (s,some o) => { s with handlers := (task,o) ::ₘ s.handlers }
    | (s,none) => s
  | .finish task o => { s with heap := s.heap.release o, handlers := s.handlers.erase (task,o) }
  | .invalidJson o => { s with handlers := s.handlers.erase (.convertToGelf,o) }
  | .newProcessor o sent => StreamRefs.newProcessor s o sent
  | .addRequest o sent => processorAddRequest s o sent
  | .addJsException o sent => processorAddJsException s o sent
  | .addEvent o sent => processorAddEvent s o sent
  | .forwardUpdate o sent => StreamRefs.forwardUpdate s o sent
  | .destroyProcessor o => { s with heap := s.heap.release o, processors := s.processors.erase o }
  | .receive receiver o =>
    { s with messages := s.messages.erase (receiver,o), handlers := (.handle receiver,o) ::ₘ s.handlers }
  | .refreshCache thread =>
    { s with
      heap := s.heap.releaseAll ((s.caches.filter (·.1.1 = thread)).map Prod.snd)
      caches := s.caches.filter (·.1.1 ≠ thread) }

/-- Any interleaving of the events, from the start of the program. -/
def StreamRun : List StreamEvent → Streams → Prop := fun events s =>
  Run (fun s event => (.ok (s.step event,[]) : Except Fault (Streams × List Empty))) Possible Streams.initial events s []

/-- The reference an event forgets. -/
def lostBy : StreamEvent → Multiset Ref
  | .invalidJson o | .addJsException o false | .addEvent o false => {o}
  | _ => 0

variable {s : Streams} {lost : Multiset Ref} {o : Ref}

/-! The holders after a change of one of the places. -/

lemma holders_handlers_cons (s : Streams) (task : Task) (o : Ref) :
    { s with handlers := (task,o) ::ₘ s.handlers : Streams }.holders = o ::ₘ s.holders := by
  simp only [Streams.holders,Multiset.map_cons,Multiset.add_cons]

lemma holders_messages_cons (s : Streams) (receiver : Receiver) (o : Ref) :
    { s with messages := (receiver,o) ::ₘ s.messages : Streams }.holders = o ::ₘ s.holders := by
  simp only [Streams.holders,Multiset.map_cons,Multiset.add_cons,Multiset.cons_add]

lemma holders_processors_cons (s : Streams) (o : Ref) :
    { s with processors := o ::ₘ s.processors : Streams }.holders = o ::ₘ s.holders := by
  simp only [Streams.holders,Multiset.add_cons,Multiset.cons_add]

lemma holders_caches_cons (s : Streams) (key : Thread × Bytes) (o : Ref) :
    { s with caches := (key,o)::s.caches : Streams }.holders = o ::ₘ s.holders := by
  simp only [Streams.holders,List.map_cons,← Multiset.cons_coe,Multiset.add_cons,Multiset.cons_add]

lemma cons_holders_handlers_erase {task : Task} (h : (task,o) ∈ s.handlers) :
    o ::ₘ { s with handlers := s.handlers.erase (task,o) : Streams }.holders = s.holders := by
  rw [← holders_handlers_cons _ task]
  simp only [Multiset.cons_erase h]

lemma cons_holders_messages_erase {receiver : Receiver} (h : (receiver,o) ∈ s.messages) :
    o ::ₘ { s with messages := s.messages.erase (receiver,o) : Streams }.holders = s.holders := by
  rw [← holders_messages_cons _ receiver]
  simp only [Multiset.cons_erase h]

lemma cons_holders_processors_erase (h : o ∈ s.processors) :
    o ::ₘ { s with processors := s.processors.erase o : Streams }.holders = s.holders := by
  rw [← holders_processors_cons]
  simp only [Multiset.cons_erase h]

lemma mem_holders_of_mem_processors (h : o ∈ s.processors) : o ∈ s.holders :=
  cons_holders_processors_erase h ▸ Multiset.mem_cons_self o _

lemma mem_of_lookup {K : Type} [BEq K] [LawfulBEq K] {key : K} {entries : List (K × Ref)} (h : entries.lookup key = some o) :
    o ∈ entries.map Prod.snd := by
  obtain ⟨a,b,rfl,-⟩ := List.lookup_eq_some_iff.mp h
  simp

lemma mem_holders_of_configured {name : Bytes} (h : s.configuredStreams.lookup name = some o) : o ∈ s.holders :=
  Multiset.mem_add.mpr (.inl (Multiset.mem_coe.mpr (mem_of_lookup h)))

lemma mem_holders_of_cached {key : Thread × Bytes} (h : s.caches.lookup key = some o) : o ∈ s.holders :=
  Multiset.mem_add.mpr (.inr (Multiset.mem_add.mpr (.inl (Multiset.mem_coe.mpr (mem_of_lookup h)))))

/-! The accounts after each of the functions. -/

/-- The caller of get_stream_info is one more holder. -/
lemma accounts_getStreamInfo (h : s.heap.Accounts s.holders lost) (name : Bytes) (cache : Option Thread) :
    (∀ o, (getStreamInfo s name cache).2 = some o →
      (getStreamInfo s name cache).1.heap.Accounts (o ::ₘ (getStreamInfo s name cache).1.holders) lost) ∧
    ((getStreamInfo s name cache).2 = none → (getStreamInfo s name cache).1 = s) := by
  unfold getStreamInfo
  cases hcached : cache.bind fun thread => s.caches.lookup (thread,name) with
  | some o =>
    obtain ⟨thread,-,hlookup⟩ := Option.bind_eq_some_iff.mp hcached
    refine ⟨fun p hp => ?_,nofun⟩
    obtain rfl := Option.some.inj hp
    exact h.reference (mem_holders_of_cached hlookup)
  | none =>
    cases hconfigured : s.configuredStreams.lookup name with
    | none => exact ⟨nofun,fun _ => rfl⟩
    | some o =>
      have hcaller := h.reference (mem_holders_of_configured hconfigured)
      cases cache with
      | none =>
        refine ⟨fun p hp => ?_,nofun⟩
        obtain rfl := Option.some.inj hp
        exact hcaller
      | some thread =>
        refine ⟨fun p hp => ?_,nofun⟩
        obtain rfl := Option.some.inj hp
        have hcache := hcaller.reference (Multiset.mem_cons_self o _)
        rw [← holders_caches_cons _ (thread,name)] at hcache
        exact hcache

lemma accounts_start (h : s.heap.Accounts s.holders lost) (task : Task) (name : Bytes) (cache : Option Thread) :
    (s.step (.start task name cache)).heap.Accounts (s.step (.start task name cache)).holders lost := by
  obtain ⟨hsome,hnone⟩ := accounts_getStreamInfo h name cache
  dsimp only [Streams.step]
  generalize getStreamInfo s name cache = result at hsome hnone
  obtain ⟨t,found⟩ := result
  cases found with
  | none =>
    obtain rfl : t = s := hnone rfl
    exact h
  | some o =>
    have hhandler := hsome o rfl
    rw [← holders_handlers_cons _ task] at hhandler
    exact hhandler

lemma accounts_getStreams {heap : Heap} {held : Multiset Ref} (h : heap.Accounts held lost) (names : List Bytes) :
    (getStreams heap names).1.Accounts (↑((getStreams heap names).2.map Prod.snd)+held) lost := by
  induction names generalizing heap held with
  | nil => simpa [getStreams] using h
  | cons name names ih =>
    have hrest := ih h.alloc
    rw [Multiset.add_cons,← Multiset.cons_add,Multiset.cons_coe] at hrest
    exact hrest

lemma accounts_update (h : s.heap.Accounts s.holders lost) (names : List Bytes) :
    (updateStreamConfig s names).heap.Accounts (updateStreamConfig s names).holders lost := by
  have hnew := accounts_getStreams h names
  rw [Streams.holders,add_left_comm] at hnew
  exact hnew.releaseAll

lemma accounts_sendMessage (h : s.heap.Accounts s.holders lost) (ho : o ∈ s.holders) (releaseOnFailure : Bool)
    (receiver : Receiver) (sent : Bool) :
    (sendMessage releaseOnFailure receiver s o sent).heap.Accounts
      (sendMessage releaseOnFailure receiver s o sent).holders ((if sent || releaseOnFailure then 0 else {o})+lost) := by
  have hmessage := h.reference ho
  cases sent with
  | true =>
    rw [← holders_messages_cons _ receiver] at hmessage
    exact (zero_add lost).symm ▸ hmessage
  | false =>
    cases releaseOnFailure with
    | true => exact (zero_add lost).symm ▸ hmessage.release
    | false => exact (Multiset.singleton_add o lost).symm ▸ hmessage.lose

lemma accounts_newProcessor (h : s.heap.Accounts s.holders lost) (hhandler : (.createProcessor,o) ∈ s.handlers)
    (sent : Bool) : (newProcessor s o sent).heap.Accounts (newProcessor s o sent).holders lost := by
  have hprocessor : o ∈ (processorNew s o).processors := Multiset.mem_cons_self o s.processors
  have hnew : (processorNew s o).heap.Accounts (processorNew s o).holders lost := by
    rw [← cons_holders_handlers_erase hhandler,← holders_processors_cons] at h
    exact h
  have hsend := accounts_sendMessage hnew (mem_holders_of_mem_processors hprocessor) true .indexer sent
  rw [Bool.or_true,if_pos rfl,zero_add] at hsend
  exact hsend

lemma accounts_refreshCache (h : s.heap.Accounts s.holders lost) (thread : Thread) :
    (s.step (.refreshCache thread)).heap.Accounts (s.step (.refreshCache thread)).holders lost := by
  have hsplit : (↑(s.caches.map Prod.snd) : Multiset Ref) =
      ↑((s.caches.filter (·.1.1 = thread)).map Prod.snd)+↑((s.caches.filter (·.1.1 ≠ thread)).map Prod.snd) := by
    have hperm := (List.filter_append_perm (fun entry => decide (entry.1.1 = thread)) s.caches).map Prod.snd
    rw [List.map_append] at hperm
    rw [Multiset.coe_add,← Multiset.coe_eq_coe.mpr hperm]
    simp
  rw [Streams.holders,hsplit,add_assoc,add_left_comm] at h
  exact h.releaseAll

/-- An event loses the reference it forgets and no other. -/
theorem accounts_step (h : s.heap.Accounts s.holders lost) {event : StreamEvent} (hpossible : Possible s event) :
    (s.step event).heap.Accounts (s.step event).holders (lostBy event+lost) := by
  have hzero : 0+lost = lost := zero_add lost
  cases event with
  | update names => exact hzero.symm ▸ accounts_update h names
  | start task name cache => exact hzero.symm ▸ accounts_start h task name cache
  | finish task o =>
    rw [← cons_holders_handlers_erase hpossible] at h
    exact hzero.symm ▸ h.release
  | invalidJson o =>
    rw [← cons_holders_handlers_erase hpossible] at h
    exact (Multiset.singleton_add o lost).symm ▸ h.lose
  | newProcessor o sent => exact hzero.symm ▸ accounts_newProcessor h hpossible sent
  | addRequest o sent =>
    have hsend := accounts_sendMessage h (mem_holders_of_mem_processors hpossible) true .requestWriter sent
    rw [Bool.or_true] at hsend
    exact hsend
  | addJsException o sent =>
    have hsend := accounts_sendMessage h (mem_holders_of_mem_processors hpossible) false .requestWriter sent
    cases sent <;> exact hsend
  | addEvent o sent =>
    have hsend := accounts_sendMessage h (mem_holders_of_mem_processors hpossible) false .requestWriter sent
    cases sent <;> exact hsend
  | forwardUpdate o sent =>
    have hsend := accounts_sendMessage h (mem_holders_of_mem_processors hpossible) true .statsUpdater sent
    rw [Bool.or_true] at hsend
    exact hsend
  | destroyProcessor o =>
    rw [← cons_holders_processors_erase hpossible] at h
    exact hzero.symm ▸ h.release
  | receive receiver o =>
    rw [← cons_holders_messages_erase hpossible,← holders_handlers_cons _ (.handle receiver)] at h
    exact hzero.symm ▸ h
  | refreshCache thread => exact hzero.symm ▸ accounts_refreshCache h thread

/-- Along a run the counts are those of the holders and of the references lost on the way. -/
lemma accounts_run {events : List StreamEvent} (h : StreamRun events s) :
    s.heap.Accounts s.holders (events.map lostBy).sum := by
  refine Run.invariant (P := fun events s _ => s.heap.Accounts s.holders (events.map lostBy).sum) ?_ ?_ h
  · exact Heap.Accounts.empty
  · intro events s _ event next out hs hpossible hnext
    obtain ⟨rfl,-⟩ := Prod.mk.inj (Except.ok.inj hnext)
    rw [List.map_append,List.sum_append,List.map_singleton,List.sum_singleton,add_comm]
    exact accounts_step hs hpossible

/-- A message that is not valid JSON, or a JavaScript exception or an event that cannot be sent. -/
inductive Forgets : StreamEvent → Prop
  | invalidJson (o : Ref) : Forgets (.invalidJson o)
  | addJsException (o : Ref) : Forgets (.addJsException o false)
  | addEvent (o : Ref) : Forgets (.addEvent o false)

lemma lostBy_eq_zero_iff (event : StreamEvent) : lostBy event = 0 ↔ ¬Forgets event := by
  constructor
  · rintro hzero (o | o | o)
    · exact Multiset.singleton_ne_zero o hzero
    · exact Multiset.singleton_ne_zero o hzero
    · exact Multiset.singleton_ne_zero o hzero
  · intro h
    cases event with
    | invalidJson o => exact absurd (.invalidJson o) h
    | addJsException o sent =>
      cases sent with
      | true => rfl
      | false => exact absurd (.addJsException o) h
    | addEvent o sent =>
      cases sent with
      | true => rfl
      | false => exact absurd (.addEvent o) h
    | _ => rfl

/-- After any interleaving every object has as many references as holders, and is freed just if it
has none, unless a conversion, a JavaScript exception or an event has forgotten one. -/
theorem refCount_eq_holders_iff (events : List StreamEvent) (s : Streams) (h : StreamRun events s) :
    (∀ o < s.heap.next, s.heap.refCount o = s.holders.count o ∧ (s.heap.freed o = true ↔ s.holders.count o = 0)) ↔
      ∀ event ∈ events, ¬Forgets event := by
  rw [(accounts_run h).exact_iff,List.sum_eq_zero_iff,List.forall_mem_map]
  exact forall_congr' fun event => forall_congr' fun _ => lostBy_eq_zero_iff event

/-- The state after the events. -/
def after (events : List StreamEvent) : Streams := events.foldl Streams.step Streams.initial

lemma streamRun_after {events : List StreamEvent} (h : StreamRun events (after events)) (event : StreamEvent)
    (hpossible : Possible (after events) event) : StreamRun (events ++ [event]) (after (events ++ [event])) := by
  rw [after,List.foldl_append]
  exact h.step hpossible rfl

/-- A stream is configured, a parser creates a processor for it and sends an event. -/
def quietEvents : List StreamEvent :=
  [.update [lit "shop-prod"],.start .createProcessor (lit "shop-prod") (some 0),.newProcessor 0 true,.addEvent 0 true]

/-- The table, the cache, the processor and two messages hold the stream. -/
theorem refCount_eq_holders_quiet : StreamRun quietEvents (after quietEvents) ∧
    ∀ o < (after quietEvents).heap.next, (after quietEvents).heap.refCount o = (after quietEvents).holders.count o ∧
      ((after quietEvents).heap.freed o = true ↔ (after quietEvents).holders.count o = 0) := by
  have hstart : StreamRun [] (after []) := .start
  have hupdate := streamRun_after hstart (.update [lit "shop-prod"]) (by decide)
  have hcreate := streamRun_after hupdate (.start .createProcessor (lit "shop-prod") (some 0)) (by decide)
  have hnew := streamRun_after hcreate (.newProcessor 0 true) (by decide)
  have hrun := streamRun_after hnew (.addEvent 0 true) (by decide)
  refine ⟨hrun,(refCount_eq_holders_iff quietEvents (after quietEvents) hrun).mpr ?_⟩
  intro event hevent hforgets
  cases hforgets <;> simp [quietEvents] at hevent

/-- A message that is not valid JSON keeps a stream that nobody holds any longer. -/
theorem refCount_forgotten : ∃ events s, StreamRun events s ∧ 0 < s.heap.next ∧
    s.heap.refCount 0 = 1 ∧ s.holders.count 0 = 0 ∧ s.heap.freed 0 = false := by
  have hstart : StreamRun [] (after []) := .start
  have hupdate := streamRun_after hstart (.update [lit "shop-prod"]) (by decide)
  have hconvert := streamRun_after hupdate (.start .convertToGelf (lit "shop-prod") (some 0)) (by decide)
  have hinvalid := streamRun_after hconvert (.invalidJson 0) (by decide)
  have hremove := streamRun_after hinvalid (.update []) (by decide)
  have hrefresh := streamRun_after hremove (.refreshCache 0) (by decide)
  exact ⟨_,_,hrefresh,by decide,by decide,by decide,by decide⟩

end Logjam.Importer.StreamRefs
