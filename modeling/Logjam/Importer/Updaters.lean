import Logjam.Importer.FixedBuffers
import Logjam.Importer.WellFormedUpdates
import Logjam.Library.Playback
import Logjam.Library.WorkerPool

/-! The controller and its updaters. Once per update interval the controller forwards what it has
collected, message by message; every message is sent first and counted afterwards. The updaters take
the messages from a common queue, update MongoDB entry by entry, and subtract a message from the
counter when they are through with it. A message may fail to be sent and an update may be refused, in
both cases with no more than a line in the log. Once a minute the controller logs the streams it does not know. -/
namespace Logjam.Importer.Updaters
open Logjam.Library Logjam.Library.MergeMap Logjam.Library.WorkerPool Logjam.Importer.Controller

variable {n k : ℕ}

/-- The counter is an int, of which it is assumed that it does not overflow: there are never 2^31 messages at once. -/
structure State (n k : ℕ) where
  controller : ControllerState n
  unknownStreams : ZHash Unit
  /-- The streams are to be logged once everything is forwarded. -/
  logDue : Bool
  /-- What forward_updates still has to send. -/
  forwarding : List (UpdateMsg n)
  /-- A message has been sent and not been counted yet. -/
  uncounted : Bool
  queuedUpdates : ℤ
  pool : Pool (Fin k) (Except Fault StatsUpdate) Database

inductive Event (n k : ℕ)
  | tick (tick : Tick n) (traversal : Traversal)
  | log (traversal : Traversal)
  | send (ok : Bool)
  | count
  | take (updater : Fin k) (i : ℕ)
  | update (updater : Fin k) (i : ℕ) (ok : Bool)
  | finish (updater : Fin k)

/-- What can be seen from outside. -/
inductive Seen (n : ℕ)
  | message (msg : UpdateMsg n) (ok : Bool)
  | update (w : StatsUpdate) (ok : Bool)

def initial (database : Database) : State n k := ⟨⟨0,[],[]⟩,∅,false,[],false,0,.start database⟩

def step (env : Env n) (state : State n k) : Event n k → Except Fault (State n k × List (Seen n))
  | .tick tick traversal => do
    let controller ← collectStatsAndForward env state.controller tick
    let processors := controller.forwarded.drop state.controller.forwarded.length
    return ({ state with controller := controller
                         unknownStreams := collectUnknownStreams env traversal state.unknownStreams tick
                         logDue := decide (controller.ticks%60 = 0)
                         forwarding := processors.flatMap (forwardUpdates traversal) },[])
  | .log traversal => do
    let _ ← logUnknownStreams traversal state.unknownStreams
    return ({ state with unknownStreams := ∅,logDue := false },[])
  | .send ok =>
    match state.forwarding with
    | [] => return (state,[])
    | msg::rest =>
      if ok then
        return ({ state with forwarding := rest,uncounted := true,
                             pool := state.pool.push (msg.updates env.res) },[.message msg true])
      else return ({ state with forwarding := rest },[.message msg false])
  | .count => return ({ state with uncounted := false,queuedUpdates := state.queuedUpdates+1 },[])
  | .take updater i =>
    match state.pool.take updater i with
    | none => return (state,[])
    | some pool => return ({ state with pool := pool },[])
  | .update updater i ok =>
    match state.pool.next updater i with
    | none => return (state,[])
    | some (.error fault) => .error fault
    | some (.ok w) =>
      match state.pool.perform runUpdate updater i ok with
      | none => return (state,[])
      | some pool => return ({ state with pool := pool },[.update w ok])
  | .finish updater =>
    match state.pool.finish updater with
    | none => return (state,[])
    | some pool => return ({ state with pool := pool,queuedUpdates := state.queuedUpdates-1 },[])

/-- The controller does one thing after the other; an updater does what it has. -/
def allowed (state : State n k) : Event n k → Prop
  | .tick _ _ => state.forwarding = [] ∧ state.uncounted = false ∧ state.logDue = false
  | .log _ => state.forwarding = [] ∧ state.uncounted = false ∧ state.logDue = true
  | .send _ => state.forwarding ≠ [] ∧ state.uncounted = false
  | .count => state.uncounted = true
  | .take updater i => (state.pool.take updater i).isSome
  | .update updater i _ => (state.pool.next updater i).isSome
  | .finish updater => (state.pool.finish updater).isSome

instance (msgs : List (UpdateMsg n)) : Decidable (msgs = []) :=
  decidable_of_iff (msgs.isEmpty = true) List.isEmpty_iff

instance (state : State n k) (event : Event n k) : Decidable (allowed state event) := by
  cases event <;> unfold allowed <;> infer_instance

def Event.tick? : Event n k → Option (Tick n)
  | .tick t _ => some t
  | _ => none

def Seen.message? : Seen n → Option (UpdateMsg n)
  | .message msg _ => some msg
  | .update _ _ => none

/-- The messages that have been queued. -/
def Seen.sent? : Seen n → Option (UpdateMsg n)
  | .message msg ok => if ok then some msg else none
  | .update _ _ => none

def Seen.update? : Seen n → Option (Except Fault StatsUpdate × Bool)
  | .message _ _ => none
  | .update w ok => some (.ok w,ok)

def Seen.Ok : Seen n → Prop
  | .message _ ok => ok = true
  | .update _ ok => ok = true

instance (s : Seen n) : Decidable s.Ok := by
  cases s <;> unfold Seen.Ok <;> infer_instance

/-! What one step can do. -/

/-- The moves of the controller and of the updaters, with what they change. -/
inductive Move (env : Env n) (state : State n k) : Event n k → State n k → List (Seen n) → Prop
  | tick {tick traversal controller} (hidle : state.forwarding = [])
      (hrun : collectStatsAndForward env state.controller tick = .ok controller) :
      Move env state (.tick tick traversal) { state with
        controller := controller
        unknownStreams := collectUnknownStreams env traversal state.unknownStreams tick
        logDue := decide (controller.ticks%60 = 0)
        forwarding :=
          (controller.forwarded.drop state.controller.forwarded.length).flatMap (forwardUpdates traversal) } []
  | log {traversal} : Move env state (.log traversal) { state with unknownStreams := ∅,logDue := false } []
  | send {msg rest} (hforwarding : state.forwarding = msg::rest) (hcounted : state.uncounted = false) :
      Move env state (.send true) { state with forwarding := rest,uncounted := true,
                                               pool := state.pool.push (msg.updates env.res) } [.message msg true]
  | lose {msg rest} (hforwarding : state.forwarding = msg::rest) (hcounted : state.uncounted = false) :
      Move env state (.send false) { state with forwarding := rest } [.message msg false]
  | count (huncounted : state.uncounted = true) :
      Move env state .count { state with uncounted := false,queuedUpdates := state.queuedUpdates+1 } []
  | take {updater i pool} (htake : state.pool.take updater i = some pool) :
      Move env state (.take updater i) { state with pool := pool } []
  | update {updater i ok w pool} (hnext : state.pool.next updater i = some (.ok w))
      (hperform : state.pool.perform runUpdate updater i ok = some pool) :
      Move env state (.update updater i ok) { state with pool := pool } [.update w ok]
  | finish {updater pool} (hfinish : state.pool.finish updater = some pool) :
      Move env state (.finish updater) { state with pool := pool,queuedUpdates := state.queuedUpdates-1 } []

theorem move_of_step {env : Env n} {state next : State n k} {event : Event n k} {out : List (Seen n)}
    (hallowed : allowed state event) (h : step env state event = .ok (next,out)) :
    Move env state event next out := by
  cases event with
  | tick tick traversal =>
    obtain ⟨controller,hrun,h⟩ := bind_eq_ok_iff.mp h
    obtain ⟨rfl,rfl⟩ := Prod.mk.inj (Except.ok.inj h)
    exact .tick hallowed.1 hrun
  | log traversal =>
    obtain ⟨line,-,h⟩ := bind_eq_ok_iff.mp h
    obtain ⟨rfl,rfl⟩ := Prod.mk.inj (Except.ok.inj h)
    exact .log
  | send ok =>
    obtain ⟨msg,rest,hforwarding⟩ := List.exists_cons_of_ne_nil hallowed.1
    simp only [step,hforwarding] at h
    cases ok with
    | true =>
      obtain ⟨rfl,rfl⟩ := Prod.mk.inj (Except.ok.inj h)
      exact .send hforwarding hallowed.2
    | false =>
      obtain ⟨rfl,rfl⟩ := Prod.mk.inj (Except.ok.inj h)
      exact .lose hforwarding hallowed.2
  | count =>
    obtain ⟨rfl,rfl⟩ := Prod.mk.inj (Except.ok.inj h)
    exact .count hallowed
  | take updater i =>
    obtain ⟨pool,htake⟩ := Option.isSome_iff_exists.mp hallowed
    simp only [step,htake] at h
    obtain ⟨rfl,rfl⟩ := Prod.mk.inj (Except.ok.inj h)
    exact .take htake
  | update updater i ok =>
    obtain ⟨r,hnext⟩ := Option.isSome_iff_exists.mp hallowed
    obtain ⟨pool,hperform⟩ := Pool.perform_of_next hnext runUpdate ok
    cases r with
    | error fault =>
      simp only [step,hnext] at h
      cases h
    | ok w =>
      simp only [step,hnext,hperform] at h
      obtain ⟨rfl,rfl⟩ := Prod.mk.inj (Except.ok.inj h)
      exact .update hnext hperform
  | finish updater =>
    obtain ⟨pool,hfinish⟩ := Option.isSome_iff_exists.mp hallowed
    simp only [step,hfinish] at h
    obtain ⟨rfl,rfl⟩ := Prod.mk.inj (Except.ok.inj h)
    exact .finish hfinish

/-- A tick forwards one hash at most, behind those forwarded before. -/
lemma collectStatsAndForward_forwarded (env : Env n) (state : ControllerState n) (tick : Tick n) :
    Ensures (collectStatsAndForward env state tick) fun next => state.forwarded <+: next.forwarded := by
  refine (ensures_true _).bind fun collected _ => ?_
  refine Ensures.ite (fun _ => ?_) fun _ => Ensures.ok (List.prefix_refl _)
  cases collected with
  | nil => exact Ensures.ok (List.prefix_refl _)
  | cons processors rest => exact Ensures.ok (List.prefix_append _ _)

/-- What is known at any time of a run. The messages are those of the forwarded hashes, in some order. -/
structure Consistent (env : Env n) (database : Database) (events : List (Event n k)) (state : State n k)
    (trace : List (Seen n)) : Prop where
  controller : (events.filterMap Event.tick?).foldlM (collectStatsAndForward env) ⟨0,[],[]⟩ = .ok state.controller
  messages : (trace.filterMap Seen.message? ++ state.forwarding).Perm
    (state.controller.forwarded.flatMap (forwardUpdates byKey))
  progress : Progress runUpdate database ((trace.filterMap Seen.sent?).flatMap (UpdateMsg.updates env.res))
    (trace.filterMap Seen.update?) state.pool
  counter : state.queuedUpdates+(if state.uncounted then 1 else 0) = state.pool.tasks

lemma consistent_initial (env : Env n) (database : Database) :
    Consistent env database [] (initial database : State n k) [] where
  controller := rfl
  messages := .nil
  progress := .start
  counter := by simp [initial,Pool.tasks_start]

lemma flatMap_forwardUpdates_perm (traversal : Traversal) (hashes : List (ZHash (Processor n))) :
    (hashes.flatMap (forwardUpdates traversal)).Perm (hashes.flatMap (forwardUpdates byKey)) :=
  List.Perm.flatMap_left hashes fun hash _ => (forwardUpdates_perm traversal hash).trans (forwardUpdates_perm byKey hash).symm

section Moves
variable {env : Env n} {database : Database} {events : List (Event n k)} {state next : State n k} {trace : List (Seen n)}

lemma Consistent.controller_append (h : Consistent env database events state trace) {event : Event n k}
    (hevent : event.tick? = none) :
    ((events ++ [event]).filterMap Event.tick?).foldlM (collectStatsAndForward env) ⟨0,[],[]⟩ = .ok state.controller := by
  rw [filterMap_append_none events hevent]
  exact h.controller

/-- For a move behind the back of the controller only the accounts of the pool have to be settled. -/
lemma Consistent.silent (h : Consistent env database events state trace) {event : Event n k} (hevent : event.tick? = none)
    (hcontroller : next.controller = state.controller) (hforwarding : next.forwarding = state.forwarding)
    (hprogress : Progress runUpdate database ((trace.filterMap Seen.sent?).flatMap (UpdateMsg.updates env.res))
      (trace.filterMap Seen.update?) next.pool)
    (hcounter : next.queuedUpdates+(if next.uncounted then 1 else 0) = next.pool.tasks) :
    Consistent env database (events ++ [event]) next (trace ++ []) where
  controller := hcontroller ▸ h.controller_append hevent
  messages := by
    rw [List.append_nil,hcontroller,hforwarding]
    exact h.messages
  progress := by
    rw [List.append_nil]
    exact hprogress
  counter := hcounter

/-- The controller has sent its next message, or has given up on it. -/
lemma Consistent.attempt (h : Consistent env database events state trace) {msg : UpdateMsg n} {rest : List (UpdateMsg n)}
    (hforwarding : state.forwarding = msg::rest) {ok uncounted : Bool} {pool : Pool (Fin k) (Except Fault StatsUpdate) Database}
    (hprogress : Progress runUpdate database
      (((trace ++ [Seen.message msg ok]).filterMap Seen.sent?).flatMap (UpdateMsg.updates env.res))
      (trace.filterMap Seen.update?) pool)
    (hcounter : state.queuedUpdates+(if uncounted then 1 else 0) = pool.tasks) :
    Consistent env database (events ++ [.send ok]) { state with forwarding := rest,uncounted := uncounted,pool := pool }
      (trace ++ [.message msg ok]) where
  controller := h.controller_append rfl
  messages := by
    have hmessages := h.messages
    rw [hforwarding] at hmessages
    rw [List.filterMap_append,List.append_assoc]
    exact hmessages
  progress := by
    rw [filterMap_append_none trace (f := Seen.update?) rfl]
    exact hprogress
  counter := hcounter

lemma Consistent.move {event : Event n k} {out : List (Seen n)} (h : Consistent env database events state trace)
    (hmove : Move env state event next out) : Consistent env database (events ++ [event]) next (trace ++ out) := by
  cases hmove with
  | @tick tick traversal controller hidle hrun =>
    obtain ⟨more,hmore⟩ := collectStatsAndForward_forwarded env state.controller tick controller hrun
    refine ⟨?_,?_,?_,h.counter⟩
    · rw [List.filterMap_append,List.foldlM_append,h.controller]
      exact (bind_pure _).trans hrun
    · have hmessages := h.messages
      rw [hidle,List.append_nil] at hmessages
      rw [List.append_nil,← hmore,List.drop_left,List.flatMap_append]
      exact hmessages.append (flatMap_forwardUpdates_perm traversal more)
    · rw [List.append_nil]
      exact h.progress
  | log => exact h.silent rfl rfl rfl h.progress h.counter
  | @send msg rest hforwarding hcounted =>
    refine h.attempt hforwarding ?_ ?_
    · rw [List.filterMap_append,List.flatMap_append]
      exact List.flatMap_singleton (UpdateMsg.updates env.res) msg ▸ h.progress.push (msg.updates env.res)
    · have hcounter := h.counter
      rw [hcounted] at hcounter
      simp only [Bool.false_eq_true,if_false,add_zero] at hcounter
      simp only [if_true,Pool.tasks_push,hcounter]
      push_cast
      rfl
  | @lose msg rest hforwarding hcounted =>
    refine h.attempt hforwarding ?_ h.counter
    rw [filterMap_append_none trace rfl]
    exact h.progress
  | count huncounted =>
    have hcounter := h.counter
    rw [huncounted] at hcounter
    exact h.silent rfl rfl rfl h.progress (by simpa using hcounter)
  | take htake =>
    refine h.silent rfl rfl rfl (h.progress.take htake) ?_
    rw [Pool.tasks_take htake]
    exact h.counter
  | @update updater i ok w pool hnext hperform =>
    refine ⟨h.controller_append rfl,?_,?_,?_⟩
    · rw [filterMap_append_none trace rfl]
      exact h.messages
    · rw [filterMap_append_none trace (f := Seen.sent?) rfl,filterMap_append_some trace (b := (.ok w,ok)) rfl]
      exact h.progress.perform hnext hperform
    · rw [Pool.tasks_perform hperform]
      exact h.counter
  | finish hfinish =>
    refine h.silent rfl rfl rfl (h.progress.finish hfinish) ?_
    have htasks := Pool.tasks_finish hfinish
    have hcounter := h.counter
    rw [← htasks] at hcounter
    push_cast at hcounter
    simp only
    linarith

end Moves

/-! An update interval with two updaters. One of them is through with the totals before the controller has
counted that message; later both work at the same time. -/

def emptyTick : Tick 10 := ⟨[[]],by simp,inOrder,inOrder⟩

def overtakingEvents : List (Event 10 2) :=
  (sampleTicks ++ [emptyTick,emptyTick,emptyTick]).map (fun tick => .tick tick byKeyBackwards) ++
    [.send true,.take 0 0,.update 0 2 true,.update 0 0 true,.update 0 0 true,.finish 0]

def storingEvents : List (Event 10 2) :=
  [.count,.send true,.count,.send true,.count,.send true,.count,.send true,.count,.take 1 1,.take 0 0,
    .update 1 1 true,.update 0 0 true,.update 1 1 true,.update 0 0 true,.update 1 1 true,.update 0 0 true,
    .update 1 0 true,.update 1 0 true,.update 1 0 true,.finish 0,.finish 1,.take 0 1,.update 0 0 true,.finish 0,
    .take 1 0,.update 1 0 true,.update 1 0 true,.update 1 0 true,.update 1 0 true,.update 1 0 true,.update 1 0 true,
    .finish 1]

def sampleEvents : List (Event 10 2) := overtakingEvents ++ storingEvents

def noDatabase : Database := fun _ => none

/-- Everything is forwarded and stored in the end, with 19 updates. -/
lemma sample_run : ∃ state trace,Run (step sampleEnv) allowed (initial noDatabase) sampleEvents state trace ∧
    state.controller.collectedProcessors.length = 0 ∧ state.forwarding.length = 0 ∧ state.pool.tasks = 0 ∧
      (∀ s ∈ trace,s.Ok) ∧ (trace.filterMap Seen.update?).length = 19 := by
  have hplay : (play (step sampleEnv) allowed (initial noDatabase) sampleEvents).map (fun r =>
      decide (r.1.controller.collectedProcessors.length = 0 ∧ r.1.forwarding.length = 0 ∧ r.1.pool.tasks = 0 ∧
        (∀ s ∈ r.2,s.Ok) ∧ (r.2.filterMap Seen.update?).length = 19)) = some true := by decide +kernel
  obtain ⟨⟨state,trace⟩,hrun,hfacts⟩ := Option.map_eq_some_iff.mp hplay
  exact ⟨state,trace,Run.of_play hrun,of_decide_eq_true hfacts⟩

section Runs
variable {env : Env n} {database : Database} {events : List (Event n k)} {state : State n k} {trace : List (Seen n)}

theorem consistent_of_run (run : Run (step env) allowed (initial database) events state trace) :
    Consistent env database events state trace :=
  run.invariant (P := Consistent env database) (consistent_initial env database)
    fun _ _ _ _ _ _ h hallowed hstep => h.move (move_of_step hallowed hstep)

/-- The counter of queued updates lags behind by the message that is just being sent. Whenever the
controller is through with forwarding, which is when it reports the counter, it is the number of messages
that are queued or being worked on, and never negative. -/
theorem queuedUpdates_eq (run : Run (step env) allowed (initial database) events state trace) :
    state.queuedUpdates = (state.pool.tasks : ℤ)-(if state.uncounted then 1 else 0) ∧
      (state.uncounted = false → 0 ≤ state.queuedUpdates ∧ (state.queuedUpdates = 0 ↔ state.pool.Drained)) := by
  have hcounter := (consistent_of_run run).counter
  refine ⟨by linarith,fun hcounted => ?_⟩
  rw [hcounted] at hcounter
  simp only [Bool.false_eq_true,if_false,add_zero] at hcounter
  rw [hcounter,Pool.drained_iff_tasks]
  exact ⟨Int.natCast_nonneg _,Int.natCast_eq_zero⟩

/-- An updater that overtakes the controller leaves the counter at minus one. -/
theorem queuedUpdates_overtaken : ∃ state trace,
    Run (step sampleEnv) allowed (initial noDatabase) overtakingEvents state trace ∧ state.pool.tasks = 0 ∧
      state.queuedUpdates = -1 := by
  have hplay : (play (step sampleEnv) allowed (initial noDatabase) overtakingEvents).map (fun r =>
      (r.1.uncounted,r.1.pool.tasks)) = some (true,0) := by decide +kernel
  obtain ⟨⟨state,trace⟩,hrun,hfacts⟩ := Option.map_eq_some_iff.mp hplay
  obtain ⟨huncounted,htasks⟩ := Prod.mk.inj hfacts
  have run := Run.of_play hrun
  have hqueued := (queuedUpdates_eq run).1
  rw [htasks,huncounted] at hqueued
  exact ⟨state,trace,run,htasks,hqueued⟩

/-! What is forwarded comes from the parsers. -/

/-- The messages that the parsers have got. -/
def parsed (events : List (Event n k)) : List ParsedMsg :=
  ((events.filterMap Event.tick?).map Tick.messages).flatten

lemma mem_parsed {tick : Tick n} (htick : tick ∈ events.filterMap Event.tick?) {msgs : List ParsedMsg}
    (hmsgs : msgs ∈ tick.parsers) {m : ParsedMsg} (hm : m ∈ msgs) : m ∈ parsed events :=
  List.mem_flatten.mpr ⟨tick.messages,List.mem_map_of_mem htick,List.mem_flatten.mpr ⟨msgs,hmsgs,hm⟩⟩

/-- What holds of the processors of the parsers, and is kept by merging, holds of all hashes. -/
lemma forall_hashes (h : Consistent env database events state trace) {P : Processor n → Prop}
    (hadd : ∀ p q,P p → P q → P (p+q))
    (hparsed : ∀ msgs,(∀ m ∈ msgs,m ∈ parsed events) → ∀ state,parseMsgs env msgs = .ok state → AllValues P state.processors) :
    ∀ hash ∈ state.controller.hashes,AllValues P hash := by
  refine Ensures.foldlM (P := fun controller : ControllerState n => ∀ hash ∈ controller.hashes,AllValues P hash)
    ?_ ?_ _ h.controller
  · intro controller hhashes tick htick
    exact collectStatsAndForward_allValues hadd (fun msgs hmsgs => hparsed msgs fun m hm => mem_parsed htick hmsgs hm) hhashes
  · simp [ControllerState.hashes]

lemma forwarded_hashes (h : Consistent env database events state trace) :
    ∀ hash ∈ state.controller.hashes,AllValues (Processor.Forwarded env) hash :=
  forall_hashes h Processor.Forwarded.add fun _ _ _ hstate =>
    parseMsgs_allValues Processor.Forwarded.add (fun _ _ _ hc => hc.forwarded) hstate

/-- A message of the controller is about the processor of a database. -/
lemma exists_processor (h : Consistent env database events state trace) {msg : UpdateMsg n}
    (hmsg : msg ∈ state.controller.forwarded.flatMap (forwardUpdates byKey)) :
    ∃ dbName p,Processor.Forwarded env p ∧ msg ∈ processorMsgs dbName p := by
  obtain ⟨hash,hhash,hmsg⟩ := List.mem_flatMap.mp hmsg
  obtain ⟨⟨dbName,p⟩,he,hmsg⟩ := List.mem_flatMap.mp ((forwardUpdates_perm byKey hash).mem_iff.mp hmsg)
  have hforwarded := forwarded_hashes h hash (List.mem_append_left _ hhash)
  exact ⟨dbName,p,hforwarded dbName p (Std.ExtTreeMap.mem_toList_iff_getElem?_eq_some.mp he),hmsg⟩

lemma mem_forwarded_of_sent (h : Consistent env database events state trace) {msg : UpdateMsg n}
    (hmsg : msg ∈ trace.filterMap Seen.sent?) : msg ∈ state.controller.forwarded.flatMap (forwardUpdates byKey) := by
  refine h.messages.mem_iff.mp (List.mem_append_left _ ?_)
  obtain ⟨s,hs,hsent⟩ := List.mem_filterMap.mp hmsg
  refine List.mem_filterMap.mpr ⟨s,hs,?_⟩
  cases s with
  | update w ok => cases hsent
  | message m ok =>
    cases ok with
    | false => cases hsent
    | true => exact hsent

lemma Processor.Forwarded.tidy {p : Processor n} (hp : Processor.Forwarded env p) (dbName : Bytes) :
    ∀ r ∈ processorUpdates env.res dbName p,TidyResult env.res r :=
  processorUpdates_tidy ⟨fun key incs hv => (hp.stored.totals key incs hv).sound,
    fun key incs hv => (hp.stored.minutes key incs hv).sound⟩ dbName

lemma sent_tidy (h : Consistent env database events state trace) :
    ∀ r ∈ (trace.filterMap Seen.sent?).flatMap (UpdateMsg.updates env.res),
      TidyResult env.res r ∧ WellFormedResult r := by
  intro r hr
  obtain ⟨msg,hmsg,hr⟩ := List.mem_flatMap.mp hr
  obtain ⟨dbName,p,hp,hmsg⟩ := exists_processor h (mem_forwarded_of_sent h hmsg)
  have hmem : r ∈ processorUpdates env.res dbName p := List.mem_flatMap.mpr ⟨msg,hmsg,hr⟩
  exact ⟨Processor.Forwarded.tidy hp dbName r hmem,processorUpdates_wellFormed dbName hp r hmem⟩

lemma Consistent.shared_eq (h : Consistent env database events state trace) (hdrained : state.pool.Drained)
    (hok : ∀ o ∈ trace.filterMap Seen.update?,o.2 = true) : state.pool.shared =
      runUpdates database ((trace.filterMap Seen.sent?).flatMap (UpdateMsg.updates env.res)) :=
  h.progress.shared_eq_foldl hdrained hok fun a ha b hb s => (sent_tidy h a ha).1.comm (sent_tidy h b hb).1 s

lemma updates_ok {trace : List (Seen n)} (hok : ∀ s ∈ trace,s.Ok) :
    ∀ o ∈ trace.filterMap Seen.update?,o.2 = true := by
  intro o ho
  obtain ⟨s,hs,ho⟩ := List.mem_filterMap.mp ho
  cases s with
  | message msg ok => cases ho
  | update w ok => exact Option.some.inj ho ▸ hok _ hs

/-- No metric of the message is negative. -/
def NonnegMetrics (env : Env n) (msg : ParsedMsg) : Prop :=
  AllValues (AllIncrements Increments.Nonneg) (contribution env msg).processors

instance (p : Processor n) : Decidable (AllIncrements Increments.Nonneg p) :=
  decidable_of_iff (AllValues Increments.Nonneg p.totals ∧ AllValues Increments.Nonneg p.minutes)
    ⟨fun h => ⟨h.1,h.2⟩,fun h => ⟨h.1,h.2⟩⟩

instance (env : Env n) (msg : ParsedMsg) : Decidable (NonnegMetrics env msg) := by
  unfold NonnegMetrics
  infer_instance

lemma sum_parsed {ticks : List (Tick n)} {parsed : List (List (ParserState n))}
    (h : List.Forall₂ (fun tick states => tick.parsers.mapM (parseMsgs env) = .ok states) ticks parsed)
    (haccepted : ∀ m ∈ (ticks.map Tick.messages).flatten,Accepted env m)
    (hagree : SettingsAgree env (ticks.map Tick.messages).flatten) :
    (parsed.flatten.map ParserState.processors).sum = processorsOf env (ticks.map Tick.messages).flatten := by
  induction h with
  | nil => rfl
  | @cons tick states ticks parsed hstates hrest ih =>
    rw [List.map_cons,List.flatten_cons] at haccepted hagree
    rw [mapM_parseMsgs env tick.parsers (fun m hm => haccepted m (List.mem_append_left _ hm))
      (hagree.mono fun m hm => List.mem_append_left _ hm)] at hstates
    obtain rfl := Except.ok.inj hstates
    rw [List.flatten_cons,List.map_append,List.sum_append,sum_contributions,List.map_cons,List.flatten_cons,
      processorsOf_append,ih (fun m hm => haccepted m (List.mem_append_right _ hm))
        (hagree.mono fun m hm => List.mem_append_right _ hm)]

lemma sortedUpdates_tidy {processors : ZHash (Processor n)} (h : AllValues Processor.Mergeable processors) :
    ∀ r ∈ sortedUpdates env.res processors,TidyResult env.res r := by
  intro r hr
  obtain ⟨⟨dbName,p⟩,he,hr⟩ := List.mem_flatMap.mp hr
  have hp := h dbName p (Std.ExtTreeMap.mem_toList_iff_getElem?_eq_some.mp he)
  exact processorUpdates_tidy hp.sound dbName r hr

section Agreement
variable (h : Consistent env database events state trace) (hagree : SettingsAgree env (parsed events))
include h hagree

lemma accepted_of_consistent : ∀ m ∈ parsed events,Accepted env m := by
  intro m hm
  obtain ⟨messages,hmessages,hm⟩ := List.mem_flatten.mp hm
  obtain ⟨tick,htick,rfl⟩ := List.mem_map.mp hmessages
  obtain ⟨msgs,hmsgs,hm⟩ := List.mem_flatten.mp hm
  have hparsed := forall_of_foldlM (fun _ _ _ => exists_parsed) h.controller tick htick
  obtain ⟨state,hstate⟩ := exists_mapM_iff.mp hparsed msgs hmsgs
  rw [parseMsgs_eq (hagree.mono fun m' hm' => mem_parsed htick hmsgs hm')] at hstate
  exact accepted_of_parseAll hstate m hm

/-- What the controller has forwarded or still holds is what the messages amount to. -/
lemma hashes_sum : state.controller.hashes.sum = processorsOf env (parsed events) := by
  obtain ⟨states,hstates,htotal⟩ := foldlM_collectStatsAndForward_total h.controller
  rw [ControllerState.hashes,List.sum_append]
  refine htotal.trans ?_
  rw [ControllerState.total,List.sum_nil,zero_add,zero_add]
  exact sum_parsed hstates (accepted_of_consistent h hagree) hagree

lemma mergeable_hashes (hmetrics : ∀ m ∈ parsed events,NonnegMetrics env m) :
    ∀ hash ∈ state.controller.hashes,AllValues Processor.Mergeable hash := by
  have hadd (p q : Processor n) (hp : AllIncrements Increments.Nonneg p) (hq : AllIncrements Increments.Nonneg q) :
      AllIncrements Increments.Nonneg (p+q) := hp.add (fun _ _ ha hb => ha.add hb) hq
  have hnonneg := forall_hashes h hadd fun msgs hmsgs state hstate => by
    rw [parseMsgs_eq (hagree.mono hmsgs)] at hstate
    exact parseAll_allValues hadd (fun m hm => hmetrics m (hmsgs m hm)) hstate
  intro hash hhash dbName p hp
  have hforwarded := forwarded_hashes h hash hhash dbName p hp
  have hall := hnonneg hash hhash dbName p hp
  refine ⟨⟨fun key incs hv => ?_,fun key incs hv => ?_⟩,hforwarded.filed.decodable⟩
  · exact ⟨(hforwarded.stored.totals key incs hv).sound,hall.totals key incs hv⟩
  · exact ⟨(hforwarded.stored.minutes key incs hv).sound,hall.minutes key incs hv⟩

end Agreement

lemma sent_of_ok (h : Consistent env database events state trace) (hok : ∀ s ∈ trace,s.Ok)
    (hforwarded : state.forwarding = []) :
    (trace.filterMap Seen.sent?).Perm (state.controller.forwarded.flatMap (forwardUpdates byKey)) := by
  have hmessages := h.messages
  rw [hforwarded,List.append_nil] at hmessages
  refine .trans (.of_eq ?_) hmessages
  refine List.filterMap_congr fun s hs => ?_
  cases s with
  | update w ok => rfl
  | message msg ok =>
    obtain rfl : ok = true := hok _ hs
    rfl

/-- The updates of what has been sent are those of the hashes, in some order. -/
lemma sent_updates_perm (h : Consistent env database events state trace) (hok : ∀ s ∈ trace,s.Ok)
    (hforwarded : state.forwarding = []) :
    ((trace.filterMap Seen.sent?).flatMap (UpdateMsg.updates env.res)).Perm
      (state.controller.forwarded.flatMap (sortedUpdates env.res)) := by
  refine ((sent_of_ok h hok hforwarded).flatMap_right _).trans ?_
  rw [List.flatMap_assoc]
  exact List.Perm.flatMap_left _ fun hash _ => forwardedUpdates_perm env.res byKey hash

end Runs
end Logjam.Importer.Updaters
