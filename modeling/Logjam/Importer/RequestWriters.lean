import Logjam.Importer.StoreRequest
import Logjam.Library.Playback
import Logjam.Library.WorkerPool

/-! Parsers and request writers. A parser sends a message for a writer and counts it afterwards; it goes on to the
next message of its own only then. The writers take the messages from a common queue, store what they have to,
and subtract a message from the counter when they are through with it. In the meantime the indexer finds out how
much space the streams take. -/
namespace Logjam.Importer.RequestWriters
open Logjam.Library Logjam.Library.WorkerPool

variable {n p k : ℕ}

inductive Phase
  | idle
  | sending (msg : RequestMsg)
  /-- The message has been dealt with, but not been counted yet. -/
  | uncounted

/-- The counter is an int, of which it is assumed that it does not overflow: there are never 2^31 messages at once. -/
structure State (n p k : ℕ) where
  parsers : Fin p → Parser n
  phases : Fin p → Phase
  storageSize : Bytes → ℤ
  queuedInserts : ℤ
  pool : Pool (Fin k) RequestMsg Unit

inductive Event (p k : ℕ)
  | parse (parser : Fin p) (msg : ParsedMsg) (draws : Draws)
  | tick (parser : Fin p)
  | measure (stream : Bytes) (size : ℤ)
  | send (parser : Fin p) (ok : Bool)
  | count (parser : Fin p)
  | take (writer : Fin k) (i : ℕ)
  | handle (writer : Fin k) (oid : Bytes) (inserted : Bool)
  | finish (writer : Fin k)

/-- What is parsed, sent and stored. -/
inductive Seen
  | parsed (msg : ParsedMsg) (streams : ZHash Bytes) (storageSize : Bytes → ℤ) (draws : Draws) (out : Option RequestMsg)
  | sent (msg : RequestMsg) (ok : Bool)
  | handled (msg : RequestMsg) (oid : Bytes) (inserted : Bool) (effects : Effects)

def initial : State n p k := ⟨fun _ => parserNew,fun _ => .idle,fun _ => 0,0,.start ()⟩

def Phase.ofForwarded : Option RequestMsg → Phase
  | none => .idle
  | some msg => .sending msg

/-- A request that could not be sent is not counted. Exceptions and events are counted in any case. -/
def WriterTask.phaseAfter : WriterTask → Bool → Phase
  | .request _,false => .idle
  | _,_ => .uncounted

def step (env : WriterEnv n) (state : State n p k) : Event p k → Except Fault (State n p k × List Seen)
  | .parse parser msg draws => do
    let next ← parseMsg env.toEnv (state.parsers parser) msg
    let (out,_) ← forwardedMsg env.toEnv env.settings (state.parsers parser).streams state.storageSize draws msg
    return ({ state with parsers := Function.update state.parsers parser next
                         phases := Function.update state.phases parser (.ofForwarded out) },
      [.parsed msg (state.parsers parser).streams state.storageSize draws out])
  | .tick parser => return ({ state with parsers := Function.update state.parsers parser parserNew },[])
  | .measure stream size => return ({ state with storageSize := Function.update state.storageSize stream size },[])
  | .send parser ok =>
    match state.phases parser with
    | .sending msg =>
      let phases := Function.update state.phases parser (WriterTask.phaseAfter msg.task ok)
      let pool := if ok then state.pool.push [msg] else state.pool
      return ({ state with phases := phases,pool := pool },[.sent msg ok])
    | _ => return (state,[])
  | .count parser => return ({ state with phases := Function.update state.phases parser .idle
                                          queuedInserts := state.queuedInserts+1 },[])
  | .take writer i =>
    match state.pool.take writer i with
    | none => return (state,[])
    | some pool => return ({ state with pool := pool },[])
  | .handle writer oid inserted =>
    match state.pool.next writer 0,state.pool.perform (fun _ _ => ()) writer 0 true with
    | some msg,some pool => do
      let effects ← handleRequestMsg env oid inserted msg
      return ({ state with pool := pool },[.handled msg oid inserted effects])
    | _,_ => return (state,[])
  | .finish writer =>
    match state.pool.finish writer with
    | none => return (state,[])
    | some pool => return ({ state with pool := pool,queuedInserts := state.queuedInserts-1 },[])

def Phase.isIdle : Phase → Bool
  | .idle => true
  | _ => false

def Phase.isSending : Phase → Bool
  | .sending _ => true
  | _ => false

def Phase.isUncounted : Phase → Bool
  | .uncounted => true
  | _ => false

/-- A parser does one thing after the other; a writer does what it has. -/
def allowed (state : State n p k) : Event p k → Prop
  | .parse parser _ _ => (state.phases parser).isIdle
  | .tick parser => (state.phases parser).isIdle
  | .measure _ _ => True
  | .send parser _ => (state.phases parser).isSending
  | .count parser => (state.phases parser).isUncounted
  | .take writer i => (state.pool.take writer i).isSome
  | .handle writer _ _ => (state.pool.next writer 0).isSome
  | .finish writer => (state.pool.finish writer).isSome

instance (state : State n p k) (event : Event p k) : Decidable (allowed state event) := by
  cases event <;> unfold allowed <;> infer_instance

def Event.parse? : Event p k → Option ParsedMsg
  | .parse _ msg _ => some msg
  | _ => none

def Seen.parsed? : Seen → Option ParsedMsg
  | .parsed msg _ _ _ _ => some msg
  | _ => none

def Seen.forwarded? : Seen → Option RequestMsg
  | .parsed _ _ _ _ out => out
  | _ => none

/-- Every message that a parser has tried to send. -/
def Seen.attempted? : Seen → Option RequestMsg
  | .sent msg _ => some msg
  | _ => none

def Seen.sent? : Seen → Option RequestMsg
  | .sent msg true => some msg
  | _ => none

/-- Exceptions and events that could not be sent. -/
def Seen.lost? : Seen → Option RequestMsg
  | .sent msg false =>
    match msg.task with
    | .request _ => none
    | _ => some msg
  | _ => none

def Seen.handled? : Seen → Option (RequestMsg × Bool)
  | .handled msg _ _ _ => some (msg,true)
  | _ => none

/-! What one step can do. -/

/-- The moves of the parsers, the writers and the indexer, with what they change. -/
inductive Move (env : WriterEnv n) (state : State n p k) : Event p k → State n p k → List Seen → Prop
  | parse {parser msg draws next out rest} (hidle : state.phases parser = .idle)
      (hnext : parseMsg env.toEnv (state.parsers parser) msg = .ok next)
      (hout : forwardedMsg env.toEnv env.settings (state.parsers parser).streams state.storageSize draws msg = .ok (out,rest)) :
      Move env state (.parse parser msg draws) { state with
        parsers := Function.update state.parsers parser next
        phases := Function.update state.phases parser (.ofForwarded out) } [.parsed msg (state.parsers parser).streams state.storageSize draws out]
  | tick {parser} : Move env state (.tick parser)
      { state with parsers := Function.update state.parsers parser parserNew } []
  | measure {stream size} : Move env state (.measure stream size)
      { state with storageSize := Function.update state.storageSize stream size } []
  | send {parser msg} (hsending : state.phases parser = .sending msg) : Move env state (.send parser true)
      { state with phases := Function.update state.phases parser .uncounted,pool := state.pool.push [msg] }
      [.sent msg true]
  | lose {parser msg} (hsending : state.phases parser = .sending msg) : Move env state (.send parser false)
      { state with phases := Function.update state.phases parser (WriterTask.phaseAfter msg.task false) }
      [.sent msg false]
  | count {parser} (huncounted : state.phases parser = .uncounted) : Move env state (.count parser)
      { state with phases := Function.update state.phases parser .idle,queuedInserts := state.queuedInserts+1 } []
  | take {writer i pool} (htake : state.pool.take writer i = some pool) :
      Move env state (.take writer i) { state with pool := pool } []
  | handle {writer oid inserted msg pool effects} (hnext : state.pool.next writer 0 = some msg)
      (hperform : state.pool.perform (fun _ _ => ()) writer 0 true = some pool)
      (heffects : handleRequestMsg env oid inserted msg = .ok effects) :
      Move env state (.handle writer oid inserted) { state with pool := pool } [.handled msg oid inserted effects]
  | finish {writer pool} (hfinish : state.pool.finish writer = some pool) : Move env state (.finish writer)
      { state with pool := pool,queuedInserts := state.queuedInserts-1 } []

lemma phaseAfter_true (task : WriterTask) : WriterTask.phaseAfter task true = .uncounted := by cases task <;> rfl

theorem move_of_step {env : WriterEnv n} {state next : State n p k} {event : Event p k} {out : List Seen}
    (hallowed : allowed state event) (h : step env state event = .ok (next,out)) : Move env state event next out := by
  cases event with
  | parse parser msg draws =>
    obtain ⟨parserState,hnext,h⟩ := bind_eq_ok_iff.mp h
    obtain ⟨r,hout,h⟩ := bind_eq_ok_iff.mp h
    obtain ⟨rfl,rfl⟩ := Prod.mk.inj (Except.ok.inj h)
    cases hphase : state.phases parser with
    | idle => exact .parse hphase hnext hout
    | _ => simp [allowed,hphase,Phase.isIdle] at hallowed
  | tick parser =>
    obtain ⟨rfl,rfl⟩ := Prod.mk.inj (Except.ok.inj h)
    exact .tick
  | measure stream size =>
    obtain ⟨rfl,rfl⟩ := Prod.mk.inj (Except.ok.inj h)
    exact .measure
  | send parser ok =>
    cases hphase : state.phases parser with
    | sending msg =>
      simp only [step,hphase] at h
      obtain ⟨rfl,rfl⟩ := Prod.mk.inj (Except.ok.inj h)
      cases ok with
      | true =>
        rw [phaseAfter_true]
        exact .send hphase
      | false => exact .lose hphase
    | _ => simp [allowed,hphase,Phase.isSending] at hallowed
  | count parser =>
    obtain ⟨rfl,rfl⟩ := Prod.mk.inj (Except.ok.inj h)
    cases hphase : state.phases parser with
    | uncounted => exact .count hphase
    | _ => simp [allowed,hphase,Phase.isUncounted] at hallowed
  | take writer i =>
    obtain ⟨pool,htake⟩ := Option.isSome_iff_exists.mp hallowed
    simp only [step,htake] at h
    obtain ⟨rfl,rfl⟩ := Prod.mk.inj (Except.ok.inj h)
    exact .take htake
  | handle writer oid inserted =>
    obtain ⟨msg,hnext⟩ := Option.isSome_iff_exists.mp hallowed
    obtain ⟨pool,hperform⟩ := Pool.perform_of_next hnext (fun _ _ => ()) true
    simp only [step,hnext,hperform] at h
    obtain ⟨effects,heffects,h⟩ := bind_eq_ok_iff.mp h
    obtain ⟨rfl,rfl⟩ := Prod.mk.inj (Except.ok.inj h)
    exact .handle hnext hperform heffects
  | finish writer =>
    obtain ⟨pool,hfinish⟩ := Option.isSome_iff_exists.mp hallowed
    simp only [step,hfinish] at h
    obtain ⟨rfl,rfl⟩ := Prod.mk.inj (Except.ok.inj h)
    exact .finish hfinish

/-! What is known at any time. -/

/-- The message a parser is about to send. -/
def Phase.pending : Phase → Multiset RequestMsg
  | .sending msg => {msg}
  | _ => 0

/-- What a parser is about to add to the counter. -/
def Phase.owed : Phase → ℕ
  | .uncounted => 1
  | _ => 0

structure Consistent (env : WriterEnv n) (events : List (Event p k)) (state : State n p k) (trace : List Seen) :
    Prop where
  parsed : trace.filterMap Seen.parsed? = events.filterMap Event.parse?
  origin : ∀ msg streams storageSize draws out,Seen.parsed msg streams storageSize draws out ∈ trace →
    ∃ rest,forwardedMsg env.toEnv env.settings streams storageSize draws msg = .ok (out,rest)
  forwarded : (trace.filterMap Seen.attempted? : Multiset RequestMsg)+∑ parser,(state.phases parser).pending =
    (trace.filterMap Seen.forwarded? : Multiset RequestMsg)
  progress : Progress (fun _ _ => ()) () (trace.filterMap Seen.sent?) (trace.filterMap Seen.handled?) state.pool
  counter : state.queuedInserts+(∑ parser,(state.phases parser).owed : ℕ) =
    (state.pool.tasks+(trace.filterMap Seen.lost?).length : ℕ)
  handled : ∀ msg oid inserted effects,Seen.handled msg oid inserted effects ∈ trace →
    handleRequestMsg env oid inserted msg = .ok effects

lemma consistent_initial (env : WriterEnv n) : Consistent env [] (initial : State n p k) [] where
  parsed := rfl
  origin := nofun
  forwarded := by simp [initial,Phase.pending]
  progress := .start
  counter := by simp [initial,Phase.owed,Pool.tasks_start]
  handled := nofun

section Moves
variable {env : WriterEnv n} {events : List (Event p k)} {state : State n p k} {trace : List Seen}

lemma Consistent.parse (h : Consistent env events state trace) {parser : Fin p} {msg : ParsedMsg} {draws rest : Draws}
    {next : Parser n} {out : Option RequestMsg} (hidle : state.phases parser = .idle)
    (hout : forwardedMsg env.toEnv env.settings (state.parsers parser).streams state.storageSize draws msg = .ok (out,rest)) :
    Consistent env (events ++ [.parse parser msg draws]) { state with
      parsers := Function.update state.parsers parser next
      phases := Function.update state.phases parser (.ofForwarded out) }
      (trace ++ [.parsed msg (state.parsers parser).streams state.storageSize draws out]) := by
  have hpending := Pool.sum_update_add Phase.pending state.phases parser (.ofForwarded out)
  have howed := Pool.sum_update_add Phase.owed state.phases parser (.ofForwarded out)
  have hzero : (Phase.ofForwarded out).owed = 0 := by cases out <;> rfl
  rw [hidle,show Phase.idle.pending = 0 from rfl,add_zero] at hpending
  rw [hidle,hzero,show Phase.idle.owed = 0 from rfl,add_zero,add_zero] at howed
  refine ⟨?_,?_,?_,?_,?_,?_⟩
  · rw [filterMap_append_some trace (b := msg) rfl,filterMap_append_some events (b := msg) rfl,h.parsed]
  · intro msg' streams storageSize draws' out' hmem
    rcases List.mem_append.mp hmem with hmem | hmem
    · exact h.origin _ _ _ _ _ hmem
    · obtain ⟨rfl,rfl,rfl,rfl,rfl⟩ := Seen.parsed.inj (List.mem_singleton.mp hmem)
      exact ⟨rest,hout⟩
  · rw [filterMap_append_none trace (f := Seen.attempted?) rfl]
    dsimp only
    rw [hpending,← add_assoc,h.forwarded]
    cases out with
    | none => rw [filterMap_append_none trace rfl]; exact add_zero _
    | some msg => rw [filterMap_append_some trace (b := msg) rfl,← Multiset.coe_add]; rfl
  · rw [filterMap_append_none trace (f := Seen.sent?) rfl,filterMap_append_none trace (f := Seen.handled?) rfl]
    exact h.progress
  · rw [filterMap_append_none trace (f := Seen.lost?) rfl]
    dsimp only
    rw [howed]
    exact h.counter
  · intro msg' oid inserted effects hmem
    rcases List.mem_append.mp hmem with hmem | hmem
    · exact h.handled _ _ _ _ hmem
    · cases List.mem_singleton.mp hmem

/-- For a move that does not parse anything only the accounts have to be settled. -/
lemma Consistent.observe (h : Consistent env events state trace) {event : Event p k} (hevent : event.parse? = none)
    {next : State n p k} {out : List Seen} (hparsed : ∀ s ∈ out,s.parsed? = none)
    (hhandled : ∀ msg oid inserted effects,Seen.handled msg oid inserted effects ∈ out →
      handleRequestMsg env oid inserted msg = .ok effects)
    (hforwarded : ((trace ++ out).filterMap Seen.attempted? : Multiset RequestMsg)+
      ∑ parser,(next.phases parser).pending = ((trace ++ out).filterMap Seen.forwarded? : Multiset RequestMsg))
    (hprogress : Progress (fun _ _ => ()) () ((trace ++ out).filterMap Seen.sent?)
      ((trace ++ out).filterMap Seen.handled?) next.pool)
    (hcounter : next.queuedInserts+(∑ parser,(next.phases parser).owed : ℕ) =
      (next.pool.tasks+((trace ++ out).filterMap Seen.lost?).length : ℕ)) :
    Consistent env (events ++ [event]) next (trace ++ out) where
  parsed := by
    have hnone : out.filterMap Seen.parsed? = [] := List.filterMap_eq_nil_iff.mpr hparsed
    rw [filterMap_append_none events hevent,List.filterMap_append,hnone,List.append_nil,h.parsed]
  origin := by
    intro msg streams storageSize draws result hmem
    rcases List.mem_append.mp hmem with hmem | hmem
    · exact h.origin _ _ _ _ _ hmem
    · cases hparsed _ hmem
  forwarded := hforwarded
  progress := hprogress
  counter := hcounter
  handled := by
    intro msg oid inserted effects hmem
    rcases List.mem_append.mp hmem with hmem | hmem
    · exact h.handled _ _ _ _ hmem
    · exact hhandled _ _ _ _ hmem

/-- A parser has sent its message, or has given up on it. -/
lemma Consistent.attempt (h : Consistent env events state trace) {parser : Fin p} {msg : RequestMsg} {ok : Bool}
    (hsending : state.phases parser = .sending msg) {phase : Phase} {pool : Pool (Fin k) RequestMsg Unit}
    (hphase : phase.pending = 0)
    (hprogress : Progress (fun _ _ => ()) () ((trace ++ [Seen.sent msg ok]).filterMap Seen.sent?)
      (trace.filterMap Seen.handled?) pool)
    (howed : pool.tasks+([Seen.sent msg ok].filterMap Seen.lost?).length = state.pool.tasks+phase.owed) :
    Consistent env (events ++ [.send parser ok])
      { state with phases := Function.update state.phases parser phase,pool := pool } (trace ++ [.sent msg ok]) := by
  have hpending := Pool.sum_update_add Phase.pending state.phases parser phase
  have hsum := Pool.sum_update_add Phase.owed state.phases parser phase
  rw [hsending,hphase,add_zero,show (Phase.sending msg).pending = {msg} from rfl] at hpending
  rw [hsending,show (Phase.sending msg).owed = 0 from rfl,add_zero] at hsum
  refine h.observe rfl (by simp [Seen.parsed?]) (by simp) ?_ ?_ ?_
  · rw [filterMap_append_some trace (b := msg) rfl,filterMap_append_none trace (f := Seen.forwarded?) rfl,
      ← h.forwarded,← hpending,← Multiset.coe_add]
    change _+({msg} : Multiset RequestMsg)+_ = _
    ac_rfl
  · rw [filterMap_append_none trace (f := Seen.handled?) rfl]
    exact hprogress
  · have hcounter := h.counter
    rw [List.filterMap_append,List.length_append]
    dsimp only
    rw [hsum]
    omega

lemma Consistent.move {next : State n p k} {event : Event p k} {out : List Seen} (h : Consistent env events state trace)
    (hmove : Move env state event next out) : Consistent env (events ++ [event]) next (trace ++ out) := by
  have hsame : trace ++ [] = trace := List.append_nil trace
  cases hmove with
  | parse hidle _ hout => exact h.parse hidle hout
  | tick =>
    refine h.observe rfl (by simp) (by simp) ?_ ?_ ?_ <;> rw [hsame]
    · exact h.forwarded
    · exact h.progress
    · exact h.counter
  | measure =>
    refine h.observe rfl (by simp) (by simp) ?_ ?_ ?_ <;> rw [hsame]
    · exact h.forwarded
    · exact h.progress
    · exact h.counter
  | @send parser msg hsending =>
    refine h.attempt hsending rfl ?_ ?_
    · rw [filterMap_append_some trace (b := msg) rfl]
      exact h.progress.push [msg]
    · rw [Pool.tasks_push]
      rfl
  | @lose parser msg hsending =>
    refine h.attempt hsending ?_ ?_ ?_
    · cases msg.task <;> rfl
    · rw [filterMap_append_none trace (f := Seen.sent?) rfl]
      exact h.progress
    · have hlost : ([Seen.sent msg false].filterMap Seen.lost?).length = (WriterTask.phaseAfter msg.task false).owed := by
        rw [List.filterMap_cons,Seen.lost?]
        cases msg.task <;> rfl
      rw [hlost]
  | @count parser huncounted =>
    have hpending := Pool.sum_update_add Phase.pending state.phases parser .idle
    have howed := Pool.sum_update_add Phase.owed state.phases parser .idle
    rw [huncounted,show Phase.uncounted.pending = 0 from rfl,show Phase.idle.pending = 0 from rfl,add_zero,add_zero] at hpending
    rw [huncounted,show Phase.uncounted.owed = 1 from rfl,show Phase.idle.owed = 0 from rfl,add_zero] at howed
    refine h.observe rfl (by simp) (by simp) ?_ ?_ ?_ <;> rw [hsame]
    · dsimp only
      rw [hpending]
      exact h.forwarded
    · exact h.progress
    · have hcounter := h.counter
      rw [← howed] at hcounter
      dsimp only
      push_cast at hcounter ⊢
      linarith
  | take htake =>
    refine h.observe rfl (by simp) (by simp) ?_ ?_ ?_ <;> rw [hsame]
    · exact h.forwarded
    · exact h.progress.take htake
    · rw [Pool.tasks_take htake]
      exact h.counter
  | @handle writer oid inserted msg pool effects hnext hperform heffects =>
    refine h.observe rfl (by simp [Seen.parsed?]) ?_ ?_ ?_ ?_
    · intro msg' oid' inserted' effects' hmem
      obtain ⟨rfl,rfl,rfl,rfl⟩ := Seen.handled.inj (List.mem_singleton.mp hmem)
      exact heffects
    · rw [filterMap_append_none trace (f := Seen.attempted?) rfl,filterMap_append_none trace (f := Seen.forwarded?) rfl]
      exact h.forwarded
    · rw [filterMap_append_none trace (f := Seen.sent?) rfl,filterMap_append_some trace (b := (msg,true)) rfl]
      exact h.progress.perform hnext hperform
    · rw [filterMap_append_none trace (f := Seen.lost?) rfl,Pool.tasks_perform hperform]
      exact h.counter
  | finish hfinish =>
    refine h.observe rfl (by simp) (by simp) ?_ ?_ ?_ <;> rw [hsame]
    · exact h.forwarded
    · exact h.progress.finish hfinish
    · have htasks := Pool.tasks_finish hfinish
      have hcounter := h.counter
      dsimp only
      omega

end Moves

/-! Two parsers and two writers. The first request that is sent has been stored before it is counted. -/

def failingRequest : ParsedMsg where
  stream := lit "shop-production"
  topic := lit "logs.shop.production"
  request := .obj [(lit "action",.str (lit "Cart#show")),(lit "started_at",.str (lit "2026-01-31T10:20:30")),
    (lit "request_id",.str (lit "0123456789abcdef0123456789abcdef")),(lit "code",.int 500),(lit "total_time",.int 25),
    (lit "db_time",.int 0),(lit "db_calls",.int 3),
    (lit "lines",.arr [.null,.arr [.int 1,.str (lit "10:20"),.str (lit "ok")],.arr [.int 3,.str (lit "10:20"),.str (lit "boom")]])]
  tracked := false

def failingScript : ParsedMsg where
  stream := lit "shop-production"
  topic := lit "javascript.shop.production"
  request := .obj [(lit "logjam_action",.str (lit "Cart#show")),(lit "started_at",.str (lit "2026-01-31T10:20:31")),
    (lit "description",.str (lit "oops"))]
  tracked := false

lemma numeral_half : ∀ c ∈ lit "0.5",c ∈ lit "+-.0123456789eE" := by decide +kernel

def sampleWriterEnv : WriterEnv 10 where
  toEnv := sampleEnv
  settings := fun _ => ⟨lit "shop",500,[],-1⟩
  number := ⟨fun _ => lit "0.5",fun _ => numeral_half⟩

def noDraws : Draws := Stream'.const 0

def first : Fin 2 := ⟨0,Nat.two_pos⟩
def second : Fin 2 := ⟨1,Nat.one_lt_two⟩

def sampleEvents : List (Event 2 2) :=
  [.parse first failingRequest noDraws,.parse second failingScript noDraws,.send second true,.take first 0,
    .handle first [] true,.finish first,.count second,.send first true,.count first,.take second 0,
    .handle second [] true,.finish second]

/-- The exception cannot be sent, but is counted. -/
def losingEvents : List (Event 2 2) := [.parse second failingScript noDraws,.send second false,.count second]

def Seen.Ok : Seen → Prop
  | .sent _ ok => ok = true
  | _ => True

instance (s : Seen) : Decidable s.Ok := by
  cases s <;> unfold Seen.Ok <;> infer_instance

lemma sample_run : ∃ state trace,Run (step sampleWriterEnv) allowed initial sampleEvents state trace ∧
    (∀ parser,(state.phases parser).isIdle = true) ∧ state.pool.tasks = 0 ∧ (∀ s ∈ trace,s.Ok) ∧
      (trace.filterMap Seen.handled?).length = 2 := by
  have hplay : (play (step sampleWriterEnv) allowed initial sampleEvents).map (fun r =>
      decide ((∀ parser,(r.1.phases parser).isIdle = true) ∧ r.1.pool.tasks = 0 ∧ (∀ s ∈ r.2,s.Ok) ∧
        (r.2.filterMap Seen.handled?).length = 2)) = some true := by decide +kernel
  obtain ⟨⟨state,trace⟩,hrun,hfacts⟩ := Option.map_eq_some_iff.mp hplay
  exact ⟨state,trace,Run.of_play hrun,of_decide_eq_true hfacts⟩

section Runs
variable {env : WriterEnv n} {events : List (Event p k)} {state : State n p k} {trace : List Seen}

theorem consistent_of_run (run : Run (step env) allowed initial events state trace) :
    Consistent env events state trace :=
  run.invariant (P := Consistent env) (consistent_initial env)
    fun _ _ _ _ _ _ h hallowed hstep => h.move (move_of_step hallowed hstep)

lemma Phase.owed_le_one (phase : Phase) : phase.owed ≤ 1 := by cases phase <;> simp [Phase.owed]

lemma Phase.owed_of_isIdle {phase : Phase} (h : phase.isIdle = true) : phase.owed = 0 := by
  cases phase with
  | idle => rfl
  | _ => cases h

lemma Phase.pending_of_isIdle {phase : Phase} (h : phase.isIdle = true) : phase.pending = 0 := by
  cases phase with
  | idle => rfl
  | _ => cases h

/-- The counter is behind by the messages that are just being sent, and ahead by the exceptions and events that
could not be sent. With parsers at work it may be negative; with idle parsers it is zero only if the writers have
nothing to do and no exception and no event was ever lost. -/
theorem queuedInserts_eq (run : Run (step env) allowed initial events state trace) :
    state.queuedInserts = (state.pool.tasks : ℤ)+(trace.filterMap Seen.lost?).length-
        (∑ parser,(state.phases parser).owed : ℕ) ∧
      -(p : ℤ) ≤ state.queuedInserts ∧
      ((∀ parser,(state.phases parser).isIdle = true) → 0 ≤ state.queuedInserts ∧
        (state.queuedInserts = 0 ↔ state.pool.Drained ∧ trace.filterMap Seen.lost? = [])) := by
  have hcounter := (consistent_of_run run).counter
  have howed : (∑ parser,(state.phases parser).owed) ≤ p := by
    calc ∑ parser,(state.phases parser).owed ≤ ∑ _ : Fin p,1 :=
          Finset.sum_le_sum fun parser _ => Phase.owed_le_one _
      _ = p := by simp
  refine ⟨by omega,by omega,fun hidle => ?_⟩
  have hzero : (∑ parser,(state.phases parser).owed) = 0 :=
    Finset.sum_eq_zero fun parser _ => Phase.owed_of_isIdle (hidle parser)
  rw [hzero] at hcounter
  rw [Pool.drained_iff_tasks,← List.length_eq_zero_iff]
  omega

theorem queuedInserts_lost : ∃ state trace,Run (step sampleWriterEnv) allowed initial losingEvents state trace ∧
    state.pool.tasks = 0 ∧ state.queuedInserts = 1 := by
  have hplay : (play (step sampleWriterEnv) allowed initial losingEvents).map (fun r =>
      (decide (∀ parser,(r.1.phases parser).isIdle = true),r.1.pool.tasks,(r.2.filterMap Seen.lost?).length)) =
      some (true,0,1) := by decide +kernel
  obtain ⟨⟨state,trace⟩,hrun,hfacts⟩ := Option.map_eq_some_iff.mp hplay
  obtain ⟨hidle,hfacts⟩ := Prod.mk.inj hfacts
  obtain ⟨htasks,hlost⟩ := Prod.mk.inj hfacts
  have run := Run.of_play hrun
  have hqueued := (queuedInserts_eq run).1
  have hzero : (∑ parser,(state.phases parser).owed) = 0 :=
    Finset.sum_eq_zero fun parser _ => Phase.owed_of_isIdle (of_decide_eq_true hidle parser)
  rw [htasks,hlost,hzero] at hqueued
  exact ⟨state,trace,run,htasks,hqueued⟩

/-- Every message that a parser forwards is handled by one writer, once. -/
lemma Consistent.handled_perm (h : Consistent env events state trace)
    (hidle : ∀ parser,(state.phases parser).isIdle = true) (hdrained : state.pool.Drained) (hok : ∀ s ∈ trace,s.Ok) :
    ((trace.filterMap Seen.handled?).map Prod.fst).Perm (trace.filterMap Seen.forwarded?) := by
  have hpending : (∑ parser,(state.phases parser).pending) = 0 :=
    Finset.sum_eq_zero fun parser _ => Phase.pending_of_isIdle (hidle parser)
  have hforwarded := h.forwarded
  rw [hpending,add_zero] at hforwarded
  have hsent : trace.filterMap Seen.sent? = trace.filterMap Seen.attempted? := by
    refine List.filterMap_congr fun s hs => ?_
    cases s with
    | sent msg ok =>
      obtain rfl : ok = true := hok _ hs
      rfl
    | _ => rfl
  exact (hsent ▸ h.progress.perm_of_drained hdrained).trans (Multiset.coe_eq_coe.mp hforwarded)

theorem handled_once (run : Run (step env) allowed initial events state trace)
    (hidle : ∀ parser,(state.phases parser).isIdle = true) (hdrained : state.pool.Drained) (hok : ∀ s ∈ trace,s.Ok) :
    ((trace.filterMap Seen.handled?).map Prod.fst).Perm (trace.filterMap Seen.forwarded?) ∧
      (∀ msg streams storageSize draws out,Seen.parsed msg streams storageSize draws out ∈ trace →
        ∃ rest,forwardedMsg env.toEnv env.settings streams storageSize draws msg = .ok (out,rest)) ∧
      trace.filterMap Seen.parsed? = events.filterMap Event.parse? ∧
      ∀ msg oid inserted effects,Seen.handled msg oid inserted effects ∈ trace →
        handleRequestMsg env oid inserted msg = .ok effects :=
  have h := consistent_of_run run
  ⟨h.handled_perm hidle hdrained hok,h.origin,h.parsed,h.handled⟩

theorem handled_once_sample : ∃ state trace,Run (step sampleWriterEnv) allowed initial sampleEvents state trace ∧
    (trace.filterMap Seen.handled?).length = 2 ∧ (trace.filterMap Seen.forwarded?).length = 2 := by
  obtain ⟨state,trace,run,hidle,htasks,hok,hlength⟩ := sample_run
  have hperm := (handled_once run hidle (Pool.drained_iff_tasks.mpr htasks) hok).1
  exact ⟨state,trace,run,hlength,by rw [← hperm.length_eq,List.length_map,hlength]⟩

end Runs
end Logjam.Importer.RequestWriters
