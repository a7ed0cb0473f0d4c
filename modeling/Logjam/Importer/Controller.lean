import Logjam.Importer.Adder
import Logjam.Library.PairwiseMerge

/-! The controller collects the hashes of the parsers at every tick, has the adders merge them and
forwards what has been collected once per update interval. An interrupted process, which leaves
the merge loop early, is not modelled. -/
namespace Logjam.Importer.Controller
open Logjam.Library.MergeMap Logjam.Library.PairwiseMerge Logjam.Library.Translation Logjam.Importer

variable {n : ℕ}

/-- How many ticks the stats of several parsers are collected before they are sent to mongo. -/
def databaseUpdateInterval : ℕ := 5

/-- What happens between two ticks: the messages of each parser, in order, and the order in which
the adders answer. There is at least one parser. -/
structure Tick (n : ℕ) where
  parsers : List (List ParsedMsg)
  parsers_ne : parsers ≠ []
  within : Arrival (ZHash (Processor n))
  across : Arrival (ZHash (Processor n))

/-- Every round halves the list, so there are never more rounds than hashes. -/
def mergeProcessors (arrival : Arrival (ZHash (Processor n))) (additions : List (ZHash (Processor n))) :
    List (ZHash (Processor n)) :=
  mergeRounds handleAddition arrival additions.length additions

/-- The part of collect_stats_and_forward up to the merge with what earlier ticks have left. -/
def collectStats (env : Env n) (collected : List (ZHash (Processor n))) (tick : Tick n) :
    Except Fault (List (ZHash (Processor n))) := do
  let states ← tick.parsers.mapM (parseMsgs env)
  match mergeProcessors tick.within (states.map ParserState.processors) with
  | [] => return collected
  | merged :: _ =>
    let collected := collected ++ [merged]
    return if 1 < collected.length then mergeProcessors tick.across collected else collected

structure ControllerState (n : ℕ) where
  ticks : ℕ
  collectedProcessors : List (ZHash (Processor n))
  forwarded : List (ZHash (Processor n))

def collectStatsAndForward (env : Env n) (state : ControllerState n) (tick : Tick n) :
    Except Fault (ControllerState n) := do
  let collected ← collectStats env state.collectedProcessors tick
  let ticks := state.ticks+1
  if ticks % databaseUpdateInterval = 0 then
    match collected with
    | [] => return ⟨ticks,[],state.forwarded⟩
    | processors :: rest => return ⟨ticks,rest,state.forwarded ++ [processors]⟩
  else return ⟨ticks,collected,state.forwarded⟩

/-- Some ticks of one update interval, starting after the previous forward. -/
def collectInterval (env : Env n) (ticks : List (Tick n)) : Except Fault (List (ZHash (Processor n))) :=
  ticks.foldlM (collectStats env) []

def Tick.messages (tick : Tick n) : List ParsedMsg := tick.parsers.flatten

lemma mergeProcessors_eq_sum (arrival : Arrival (ZHash (Processor n)))
    {additions : List (ZHash (Processor n))} (h : additions ≠ []) :
    mergeProcessors arrival additions = [additions.sum] :=
  mergeRounds_eq_sum handleAddition_eq_add arrival _ additions le_rfl h

/-- What merging two processors keeps is kept by the adders, in whatever order they answer. -/
lemma mergeRounds_allValues {P : Processor n → Prop} (hadd : ∀ p q, P p → P q → P (p+q))
    (arrival : Arrival (ZHash (Processor n))) (rounds : ℕ) {hashes : List (ZHash (Processor n))}
    (h : ∀ hash ∈ hashes, AllValues P hash) :
    ∀ hash ∈ mergeRounds handleAddition arrival rounds hashes, AllValues P hash := by
  refine forall_mergeRounds (fun source target hsource htarget => ?_) arrival rounds h
  rw [handleAddition_eq_add]
  exact hsource.add hadd htarget

/-- Parsers whose settings agree may as well handle every message with its own. -/
lemma mapM_parseMsgs (env : Env n) (parsers : List (List ParsedMsg)) (h : ∀ m ∈ parsers.flatten,Accepted env m)
    (hagree : SettingsAgree env parsers.flatten) :
    parsers.mapM (parseMsgs env) = .ok (parsers.map fun msgs => (msgs.map (contribution env)).sum) := by
  induction parsers with
  | nil => rfl
  | cons msgs rest ih =>
    rw [List.flatten_cons] at h hagree
    have hfirst : parseMsgs env msgs = .ok (msgs.map (contribution env)).sum := by
      rw [parseMsgs_eq (hagree.mono fun m hm => List.mem_append_left _ hm)]
      exact parseAll_eq_sum env msgs fun m hm => h m (List.mem_append_left _ hm)
    rw [List.mapM_cons,hfirst,ih (fun m hm => h m (List.mem_append_right _ hm))
      (hagree.mono fun m hm => List.mem_append_right _ hm)]
    rfl

/-- What the messages amount to for the processors. -/
def processorsOf (env : Env n) (msgs : List ParsedMsg) : ZHash (Processor n) :=
  (msgs.map fun m => (contribution env m).processors).sum

lemma sum_processors (states : List (ParserState n)) :
    states.sum.processors = (states.map ParserState.processors).sum := by
  induction states with
  | nil => rfl
  | cons s rest ih => rw [List.sum_cons,ParserState.add_processors,ih,List.map_cons,List.sum_cons]

lemma processorsOf_eq (env : Env n) (msgs : List ParsedMsg) :
    processorsOf env msgs = (msgs.map (contribution env)).sum.processors := by
  rw [sum_processors,List.map_map]
  rfl

lemma processorsOf_append (env : Env n) (a b : List ParsedMsg) :
    processorsOf env (a++b) = processorsOf env a+processorsOf env b := by
  rw [processorsOf,List.map_append,List.sum_append]
  rfl

lemma processorsOf_flatten (env : Env n) (parsers : List (List ParsedMsg)) :
    processorsOf env parsers.flatten = (parsers.map (processorsOf env)).sum := by
  induction parsers with
  | nil => rfl
  | cons msgs rest ih => rw [List.flatten_cons,processorsOf_append,ih,List.map_cons,List.sum_cons]

/-- One tick adds what its parsers have to what has been collected, if anything has. -/
theorem collectStats_of_parsed {env : Env n} {tick : Tick n} {states : List (ParserState n)}
    (h : tick.parsers.mapM (parseMsgs env) = .ok states) (collected : List (ZHash (Processor n))) :
    collectStats env collected tick = .ok [collected.sum+(states.map ParserState.processors).sum] := by
  have hne : states.map ParserState.processors ≠ [] := by
    have hlength := (Library.mapM_eq_ok_iff.mp h).length_eq
    rw [ne_eq,List.map_eq_nil_iff,← List.length_eq_zero_iff,← hlength,List.length_eq_zero_iff]
    exact tick.parsers_ne
  unfold collectStats
  rw [h]
  simp only [bind,Except.bind,pure,Except.pure,mergeProcessors_eq_sum tick.within hne]
  split
  · rw [mergeProcessors_eq_sum tick.across (by simp),List.sum_append,List.sum_singleton]
  · rename_i hlen
    have hnil : collected = [] := by
      apply List.length_eq_zero_iff.mp
      rw [List.length_append,List.length_singleton] at hlen
      omega
    rw [hnil,List.nil_append,List.sum_nil,zero_add]

lemma sum_contributions (env : Env n) (tick : Tick n) :
    ((tick.parsers.map fun msgs => (msgs.map (contribution env)).sum).map ParserState.processors).sum =
      processorsOf env tick.messages := by
  rw [List.map_map,Tick.messages,processorsOf_flatten]
  exact congrArg List.sum (List.map_congr_left fun msgs _ => (processorsOf_eq env msgs).symm)

lemma collectStats_eq_ok (env : Env n) (collected : List (ZHash (Processor n))) (tick : Tick n)
    (h : ∀ m ∈ tick.messages, Accepted env m) (hagree : SettingsAgree env tick.messages) :
    collectStats env collected tick = .ok [collected.sum+processorsOf env tick.messages] := by
  rw [collectStats_of_parsed (mapM_parseMsgs env tick.parsers h hagree),sum_contributions]

lemma foldlM_collectStats (env : Env n) (ticks : List (Tick n)) (collected : ZHash (Processor n))
    (h : ∀ m ∈ (ticks.map Tick.messages).flatten, Accepted env m)
    (hagree : SettingsAgree env (ticks.map Tick.messages).flatten) :
    ticks.foldlM (collectStats env) [collected] =
      .ok [collected+processorsOf env (ticks.map Tick.messages).flatten] := by
  induction ticks generalizing collected with
  | nil => exact congrArg (fun h => Except.ok [h]) (add_zero collected).symm
  | cons tick rest ih =>
    rw [List.map_cons,List.flatten_cons] at h hagree
    rw [List.foldlM_cons,collectStats_eq_ok env _ tick (fun m hm => h m (List.mem_append_left _ hm))
      (hagree.mono fun m hm => List.mem_append_left _ hm)]
    simp only [bind,Except.bind]
    rw [ih _ (fun m hm => h m (List.mem_append_right _ hm)) (hagree.mono fun m hm => List.mem_append_right _ hm),
      List.map_cons,List.flatten_cons,processorsOf_append,List.sum_singleton,add_assoc]

/-- However the messages are spread over parsers and ticks, in whatever order the adders answer,
one hash is left at the end: the one a single parser gets from all messages. -/
theorem collectInterval_eq_parseMsgs (env : Env n) (msgs : List ParsedMsg) (ticks : List (Tick n))
    (haccepted : ∀ m ∈ msgs, Accepted env m) (hagree : SettingsAgree env msgs) (hticks : ticks ≠ [])
    (hassigned : (ticks.map Tick.messages).flatten.Perm msgs) :
    ∃ state, parseMsgs env msgs = .ok state ∧ collectInterval env ticks = .ok [state.processors] := by
  refine ⟨_,(parseMsgs_eq hagree).trans (parseAll_eq_sum env msgs haccepted),?_⟩
  have hall : ∀ m ∈ (ticks.map Tick.messages).flatten, Accepted env m := fun m hm =>
    haccepted m (hassigned.mem_iff.mp hm)
  have hagree' : SettingsAgree env (ticks.map Tick.messages).flatten :=
    hagree.mono fun m hm => hassigned.mem_iff.mp hm
  have hsame : processorsOf env (ticks.map Tick.messages).flatten =
      (msgs.map (contribution env)).sum.processors := by
    rw [← processorsOf_eq]
    exact (hassigned.map _).sum_eq
  obtain ⟨tick,rest,rfl⟩ := List.exists_cons_of_ne_nil hticks
  rw [List.map_cons,List.flatten_cons] at hall hagree'
  rw [collectInterval,List.foldlM_cons,collectStats_eq_ok env [] tick (fun m hm => hall m (List.mem_append_left _ hm))
    (hagree'.mono fun m hm => List.mem_append_left _ hm)]
  simp only [bind,Except.bind]
  rw [foldlM_collectStats env rest _ (fun m hm => hall m (List.mem_append_right _ hm))
      (hagree'.mono fun m hm => List.mem_append_right _ hm),← hsame,
    List.map_cons,List.flatten_cons,processorsOf_append,List.sum_nil,zero_add]

def sampleRequest : ParsedMsg where
  stream := lit "shop-production"
  topic := lit "logs.shop.production"
  request := .obj [(lit "action",.str (lit "Cart#show")),
    (lit "started_at",.str (lit "2026-01-31T10:20:30")),(lit "total_time",.int 25),(lit "db_time",.int 7)]
  tracked := false

def sampleJsException : ParsedMsg where
  stream := lit "shop-production"
  topic := lit "javascript.shop.production"
  request := .obj [(lit "logjam_action",.str (lit "Cart#show")),
    (lit "started_at",.str (lit "2026-01-31T10:20:31")),(lit "description",.str (lit "oops"))]
  tracked := false

def sampleAjax : ParsedMsg where
  stream := lit "shop-production"
  topic := lit "frontend.ajax.shop.production"
  request := .obj [(lit "logjam_action",.str (lit "Cart#show")),
    (lit "started_at",.str (lit "2026-01-31T10:20:32")),(lit "request_id",.str (lit "4f2a")),
    (lit "rts",.str (lit "100,140")),(lit "user_agent",.str (lit "Mozilla"))]
  tracked := true

def inOrder : Arrival (ZHash (Processor n)) := ⟨fun _ l => l,fun _ _ => .refl _⟩
def backwards : Arrival (ZHash (Processor n)) := ⟨fun _ l => l.reverse,fun _ _ => List.reverse_perm _⟩

/-- Three messages over two ticks, with two parsers in the first and three in the second. -/
def sampleTicks : List (Tick 10) :=
  [⟨[[sampleJsException],[sampleRequest]],by simp,inOrder,inOrder⟩,
    ⟨[[],[sampleAjax],[]],by simp,backwards,inOrder⟩]

theorem sampleTicks_eq_parseMsgs :
    ∃ state, parseMsgs sampleEnv [sampleRequest,sampleJsException,sampleAjax] = .ok state ∧
      collectInterval sampleEnv sampleTicks = .ok [state.processors] :=
  collectInterval_eq_parseMsgs sampleEnv _ sampleTicks (by decide +kernel) (settingsAgree_of_noNul (by decide))
    (by simp [sampleTicks]) (List.Perm.swap _ _ _)

/-- Two streams with different settings. -/
def sharedEnv : Env 10 := { sampleEnv with
  getStreamInfo := fun stream => if stream = lit "shop-prod" then some ⟨lit "prod",some (lit "/x"),false,[]⟩
    else if stream = lit "shop-prod-2026-01-31" then some ⟨lit "31",none,false,[]⟩ else none }

def ownRequest : ParsedMsg := { sampleRequest with stream := lit "shop-prod" }

/-- The frame ends in NUL, so that the database is that of the other stream. -/
def foreignRequest : ParsedMsg := { sampleRequest with
  stream := lit "shop-prod-2026-01-31" ++ [0]
  request := .obj [(lit "started_at",.str (lit "2026-01-31T10:20:30")),
    (lit "request_info",.obj [(lit "url",.str (lit "/x/y"))])] }

def requestsOf (processors : ZHash (Processor n)) : Option ℕ := do
  let p ← processors[lit "logjam-shop-prod-2026-01-31"]?
  let incs ← p.totals[lit "all_pages"]?
  return incs.backendRequestCount

/-- One parser ignores the second request, as the stream of the first one says; two parsers do not. -/
theorem collectInterval_shared : (∀ m ∈ [ownRequest,foreignRequest],Accepted sharedEnv m) ∧
    ¬∃ state,parseMsgs sharedEnv [ownRequest,foreignRequest] = .ok state ∧
      collectInterval sharedEnv [⟨[[ownRequest],[foreignRequest]],by simp,inOrder,inOrder⟩] = .ok [state.processors] := by
  have hone : (parseMsgs sharedEnv [ownRequest,foreignRequest]).toOption.map (fun state => requestsOf state.processors) =
      some (some 1) := by decide +kernel
  have htwo : (collectInterval sharedEnv [⟨[[ownRequest],[foreignRequest]],by simp,inOrder,inOrder⟩]).toOption.map
      (fun hashes => hashes.map requestsOf) = some [some 2] := by decide +kernel
  refine ⟨by decide +kernel,?_⟩
  rintro ⟨state,hstate,hinterval⟩
  rw [hstate] at hone
  rw [hinterval] at htwo
  have hcount : requestsOf state.processors = some 1 := Option.some.inj hone
  have hcounts : [requestsOf state.processors] = [some 2] := Option.some.inj htwo
  rw [hcount] at hcounts
  cases hcounts

/-- Everything a controller has been told so far: what it has forwarded and what it still holds. -/
def ControllerState.total (state : ControllerState n) : ZHash (Processor n) :=
  state.forwarded.sum+state.collectedProcessors.sum

lemma collectStatsAndForward_parsed {env : Env n} {tick : Tick n} {states : List (ParserState n)}
    (h : tick.parsers.mapM (parseMsgs env) = .ok states) (state : ControllerState n) :
    ∃ next, collectStatsAndForward env state tick = .ok next ∧
      next.total = state.total+(states.map ParserState.processors).sum := by
  unfold collectStatsAndForward
  rw [collectStats_of_parsed h]
  simp only [bind,Except.bind,pure,Except.pure]
  split
  · exact ⟨_,rfl,by simp [ControllerState.total,add_assoc]⟩
  · exact ⟨_,rfl,by simp [ControllerState.total,add_assoc]⟩

lemma exists_parsed {env : Env n} {state next : ControllerState n} {tick : Tick n}
    (h : collectStatsAndForward env state tick = .ok next) :
    ∃ states,tick.parsers.mapM (parseMsgs env) = .ok states := by
  obtain ⟨collected,hcollected,-⟩ := Library.bind_eq_ok_iff.mp h
  obtain ⟨states,hstates,-⟩ := Library.bind_eq_ok_iff.mp hcollected
  exact ⟨states,hstates⟩

/-- Over any number of update intervals nothing that the parsers have is lost and nothing is counted twice. -/
theorem foldlM_collectStatsAndForward_total {env : Env n} {ticks : List (Tick n)} {state final : ControllerState n}
    (hrun : ticks.foldlM (collectStatsAndForward env) state = .ok final) :
    ∃ parsed,List.Forall₂ (fun tick states => tick.parsers.mapM (parseMsgs env) = .ok states) ticks parsed ∧
      final.total = state.total+(parsed.flatten.map ParserState.processors).sum := by
  induction ticks generalizing state with
  | nil =>
    obtain rfl := Except.ok.inj hrun
    exact ⟨[],.nil,(add_zero _).symm⟩
  | cons tick rest ih =>
    rw [List.foldlM_cons] at hrun
    obtain ⟨next,hnext,hrun⟩ := Library.bind_eq_ok_iff.mp hrun
    obtain ⟨states,hstates⟩ := exists_parsed hnext
    obtain ⟨next',hnext',htotal⟩ := collectStatsAndForward_parsed hstates state
    obtain rfl := Except.ok.inj (hnext.symm.trans hnext')
    obtain ⟨parsed,hparsed,hsum⟩ := ih hrun
    refine ⟨states::parsed,.cons hstates hparsed,?_⟩
    rw [hsum,htotal,List.flatten_cons,List.map_append,List.sum_append,add_assoc]

end Logjam.Importer.Controller
