import Logjam.Importer.FrontendStats
import Logjam.Importer.KnownModules
import Logjam.LiveStream.Publish

/-! The totals the controller publishes at every tick. It goes through the processors of the merged hash and
then through the active streams for which there was none. A stream has one stream_info object, and with
it one table of modules. -/
namespace Logjam.LiveStream
open Logjam.Library Logjam.Library.MergeMap Logjam.Importer

variable {n : ℕ}

/-- The totals of a module, if there are any, for the live stream. -/
structure TotalsMessage (n : ℕ) where
  stream : Bytes
  module : Bytes
  incs : Option (Increments n)

/-- The tables of all streams, and the messages so far. -/
structure PublishState (n : ℕ) where
  knownModules : Bytes → ZHash ℕ
  publishedStreams : ZHash Unit
  messages : List (TotalsMessage n)

/-- A processor of the merged hash, with its stream and the time when it is visited. -/
structure Visit (n : ℕ) where
  stream : Bytes
  processor : Processor n
  now : ℕ

/-- publish_totals: one message for every known module. -/
def moduleTotals (stream : Bytes) (knownModules : ZHash ℕ) (totals : Option (ZHash (Increments n))) :
    List (TotalsMessage n) :=
  knownModules.keys.map fun module => ⟨stream,module,totals.bind fun t => t[module]?⟩

/-- The first loop: streams for which there was some data. -/
def visitProcessor (state : PublishState n) (visit : Visit n) : PublishState n :=
  let known := updateKnownModules visit.now (state.knownModules visit.stream) visit.processor.modules
  { knownModules := Function.update state.knownModules visit.stream known
    publishedStreams := state.publishedStreams.insertIfNew visit.stream ()
    messages := state.messages ++ moduleTotals visit.stream known (some visit.processor.totals) }

/-- The second loop: streams for which there was none. -/
def visitStream (configured : Bytes → Bool) (state : PublishState n) (stream : Bytes) : PublishState n :=
  if configured stream ∧ state.publishedStreams[stream]? = none then
    { state with messages := state.messages ++ moduleTotals stream (state.knownModules stream) none }
  else state

def publishTotalsForEveryKnownStream (configured : Bytes → Bool) (activeStreams : List Bytes)
    (knownModules : Bytes → ZHash ℕ) (visits : List (Visit n)) : PublishState n :=
  activeStreams.foldl (visitStream configured) (visits.foldl visitProcessor ⟨knownModules,∅,[]⟩)

/-! Processors enter the module of a request before anything else. -/

/-- There are no totals without a module. -/
def Entered (p : Processor n) : Prop := p.modules = ∅ → p.totals = ∅

lemma entered_add (p q : Processor n) (hp : Entered p) (hq : Entered q) : Entered (p+q) := by
  intro hmodules
  obtain ⟨hpm,hqm⟩ := eq_zero_of_add_eq_zero (show p.modules+q.modules = 0 from hmodules)
  have htotals : p.totals+q.totals = 0 := by
    rw [show p.totals = 0 from hp hpm,show q.totals = 0 from hq hqm,add_zero]
  exact htotals

lemma addModule_modules_ne (self : Processor n) (module : Bytes) : (addModule self module).modules ≠ ∅ := by
  intro hempty
  have hget := getElem?_combineAt (fun stored _ : Unit => stored) self.modules module module ()
  rw [if_pos rfl,show combineAt (fun stored _ : Unit => stored) self.modules module () = ∅ from hempty,
    Std.ExtTreeMap.getElem?_empty] at hget
  cases hget

/-- Nothing has happened, or a module has been entered. -/
def Enters (self next : Processor n) : Prop :=
  (next.modules = self.modules ∧ next.totals = self.totals) ∨ next.modules ≠ ∅

lemma Enters.entered {self next : Processor n} (h : Enters self next) (hself : Entered self) : Entered next := by
  intro hmodules
  rcases h with ⟨hm,ht⟩ | hne
  · rw [ht]
    exact hself (hm.symm.trans hmodules)
  · exact absurd hmodules hne

section
variable {env : Env n} {self next : Processor n} {request : JObject}

lemma setupModule_enters (self : Processor n) (page : Bytes) :
    Ensures (processorSetupModule self page) fun r => r.2.modules ≠ ∅ :=
  (ensures_true _).bind fun _ _ => Ensures.ok (addModule_modules_ne self _)

lemma updateAgent_modules (self : Processor n) (agent : Option Bytes) (f : UserAgentStats → UserAgentStats) :
    (updateAgent self agent f).modules = self.modules := by cases agent <;> rfl

lemma updateAgent_totals (self : Processor n) (agent : Option Bytes) (f : UserAgentStats → UserAgentStats) :
    (updateAgent self agent f).totals = self.totals := by cases agent <;> rfl

lemma processorAddRequest_enters (info : StreamInfo) :
    Ensures (processorAddRequest env info self request) (Enters self) := by
  unfold processorAddRequest
  refine Ensures.ite (fun _ => Ensures.ok (.inl ⟨rfl,rfl⟩)) fun _ => ?_
  refine (ensures_true _).bind fun _ _ => (setupModule_enters self _).bind fun r hr => ?_
  refine (ensures_true _).bind fun _ _ => (ensures_true _).bind fun _ _ => (ensures_true _).bind fun _ _ => ?_
  refine (ensures_true _).bind fun _ _ => (ensures_true _).bind fun incs _ => ?_
  refine (addAggregates_keepsNames env r.2 _ _ _ _ _ incs).bind fun p hp => Ensures.ok (.inr ?_)
  rw [processorAddAgent,updateAgent_modules,hp.modules]
  exact hr

lemma processorAddJsException_enters : Ensures (processorAddJsException env self request) (Enters self) := by
  unfold processorAddJsException
  refine (ensures_true _).bind fun _ _ => (ensures_true _).bind fun jsException _ => ?_
  refine Ensures.ite (fun _ => Ensures.ok (.inl ⟨rfl,rfl⟩)) fun _ => (ensures_true _).bind fun _ _ => ?_
  refine (setupModule_enters self _).bind fun r hr => Ensures.ok (.inr ?_)
  split_ifs <;> exact hr

lemma processorAddFrontend_enters {tracked : Bool} {kind : FrontendKind} {reason : FeMsgDropReason}
    (h : processorAddFrontend env self request tracked kind = .ok (reason,next)) : Enters self next := by
  obtain ⟨updated,houtcome,rfl⟩ := processorAddFrontend_outcome h
  rw [Enters,processorAddUserAgent,updateAgent_modules,updateAgent_totals]
  cases houtcome with
  | outlier => exact .inr (addModule_modules_ne _ _)
  | accepted _ _ _ _ _ hadd =>
    have hkeeps := addAggregates_keepsNames _ _ _ _ _ _ _ _ _ hadd
    rw [hkeeps.modules]
    exact .inr (addModule_modules_ne _ _)
  | _ => exact .inl ⟨rfl,rfl⟩

end

lemma forwardRequest_entered {env : Env n} (msg : ParsedMsg) (state : ParserState n)
    (h : forwardRequest env 0 msg = .ok state) : AllValues Entered state.processors := by
  have hnew : Entered { (processorNew : Processor n) with requestCount := 1 } := fun _ => rfl
  cases forwardRequest_cases h with
  | unknown => exact allValues_zero
  | request _ hp => exact allValues_single ((processorAddRequest_enters _ _ hp).entered hnew)
  | jsException _ hp => exact allValues_single ((processorAddJsException_enters _ hp).entered hnew)
  | event _ hp =>
    obtain ⟨minute,-,hminute⟩ := bind_eq_ok_iff.mp hp
    obtain rfl := Except.ok.inj hminute
    exact allValues_single hnew
  | frontend _ _ hp => exact allValues_single ((processorAddFrontend_enters hp).entered hnew)
  | other => exact allValues_single hnew

/-- One of the hashes that the adders leave at a tick. -/
def Merged (env : Env n) (merged : ZHash (Processor n)) : Prop :=
  ∃ (tick : Controller.Tick n) (states : List (ParserState n)),tick.parsers.mapM (parseMsgs env) = .ok states ∧
    merged ∈ Controller.mergeProcessors tick.within (states.map ParserState.processors)

lemma Merged.entered {env : Env n} {merged : ZHash (Processor n)} (h : Merged env merged) : AllValues Entered merged := by
  obtain ⟨tick,states,hstates,hmem⟩ := h
  refine Controller.mergeRounds_allValues entered_add _ _ (List.forall_mem_map.mpr ?_) merged hmem
  intro state hstate
  obtain ⟨msgs,-,hparse⟩ := exists_of_mem_mapM hstates hstate
  refine parseMsgs_allValues entered_add (fun m _ c hc => ?_) hparse
  obtain ⟨info,hc⟩ := hc
  exact forwardRequest_entered m c hc

/-! One message per module. -/

/-- The processors in the order of the hash, with their streams and the times at which they are visited. -/
def visitsOf (traversal : Traversal) (streamOf : Bytes → Bytes) (now : Bytes → ℕ) (merged : ZHash (Processor n)) :
    List (Visit n) :=
  (traversal.keys merged).filterMap fun dbName => (merged[dbName]?).map fun p => ⟨streamOf dbName,p,now dbName⟩

lemma exists_of_mem_visitsOf {traversal : Traversal} {streamOf : Bytes → Bytes} {now : Bytes → ℕ}
    {merged : ZHash (Processor n)} {visit : Visit n} (h : visit ∈ visitsOf traversal streamOf now merged) :
    ∃ dbName,merged[dbName]? = some visit.processor ∧ visit.now = now dbName := by
  obtain ⟨dbName,-,hvisit⟩ := List.mem_filterMap.mp h
  obtain ⟨p,hp,rfl⟩ := Option.map_eq_some_iff.mp hvisit
  exact ⟨dbName,hp,rfl⟩

/-- The processors of a stream. -/
def visitsFor (stream : Bytes) (visits : List (Visit n)) : List (Visit n) := visits.filter (·.stream = stream)

def messagesFor (stream module : Bytes) (messages : List (TotalsMessage n)) : List (TotalsMessage n) :=
  messages.filter fun message => message.stream = stream ∧ message.module = module

def sumOfTotals (visits : List (Visit n)) : ZHash (Increments n) := (visits.map (·.processor.totals)).sum

/-- For every known module of an active stream there is one message, with the sums over all processors of
the stream. -/
def ExactlyOnce (configured : Bytes → Bool) (activeStreams : List Bytes) (knownModules : Bytes → ZHash ℕ)
    (visits : List (Visit n)) : Prop :=
  let final := publishTotalsForEveryKnownStream configured activeStreams knownModules visits
  ∀ stream ∈ activeStreams,configured stream → ∀ module ∈ final.knownModules stream,
    messagesFor stream module final.messages = [⟨stream,module,(sumOfTotals (visitsFor stream visits))[module]?⟩]

/-- There is one processor at most, or all but the last one visited have no modules and nothing was heard of
the stream for a day. -/
def OneSpeaks (knownModules : ZHash ℕ) (visits : List (Visit n)) : Prop :=
  visits.length ≤ 1 ∨ (∀ visit ∈ visits.dropLast,visit.processor.modules = ∅) ∧
    ∀ first ∈ visits.head?,∀ (module : Bytes) lastSeen,knownModules[module]? = some lastSeen →
      lastSeen+oneDayMs < first.now

/-! The two loops, as one stream sees them. -/

def tableAfter (knownModules : ZHash ℕ) (visits : List (Visit n)) : ZHash ℕ :=
  visits.foldl (fun known visit => updateKnownModules visit.now known visit.processor.modules) knownModules

/-- What the messages about a module say, one after the other. -/
def told (module : Bytes) : ZHash ℕ → List (Visit n) → List (Option (Increments n))
  | _,[] => []
  | known,visit::visits =>
    let known := updateKnownModules visit.now known visit.processor.modules
    (if module ∈ known then [visit.processor.totals[module]?] else []) ++ told module known visits

lemma messagesFor_append (stream module : Bytes) (a b : List (TotalsMessage n)) :
    messagesFor stream module (a ++ b) = messagesFor stream module a ++ messagesFor stream module b :=
  List.filter_append a b

lemma filter_keys (known : ZHash ℕ) (module : Bytes) :
    known.keys.filter (· = module) = if module ∈ known then [module] else [] := by
  have hnodup : known.keys.Nodup := by
    rw [List.nodup_iff_pairwise_ne]
    exact known.distinct_keys.imp fun hab he => hab (Std.compare_eq_iff_eq.mpr he)
  have hcount : known.keys.count module = if module ∈ known then 1 else 0 :=
    hnodup.count.trans (if_congr Std.ExtTreeMap.mem_keys rfl rfl)
  rw [List.filter_eq,hcount]
  split_ifs <;> rfl

lemma messagesFor_moduleTotals (stream module other : Bytes) (known : ZHash ℕ)
    (totals : Option (ZHash (Increments n))) :
    messagesFor stream module (moduleTotals other known totals) =
      if other = stream ∧ module ∈ known then [⟨stream,module,totals.bind fun t => t[module]?⟩] else [] := by
  rw [messagesFor,moduleTotals,List.filter_map]
  by_cases hstream : other = stream
  · subst hstream
    have hfilter : known.keys.filter ((fun message : TotalsMessage n =>
        decide (message.stream = other ∧ message.module = module)) ∘
          fun m => ⟨other,m,totals.bind fun t => t[m]?⟩) = known.keys.filter (· = module) :=
      List.filter_congr fun m _ => by simp
    rw [hfilter,filter_keys]
    by_cases hmem : module ∈ known <;> simp [hmem]
  · rw [List.filter_eq_nil_iff.mpr fun m _ => by simp [hstream],if_neg fun h => hstream h.1]
    rfl

/-- What the first loop does to a stream. -/
structure Visited (state final : PublishState n) (stream : Bytes) (visits : List (Visit n)) : Prop where
  known : final.knownModules stream = tableAfter (state.knownModules stream) visits
  published : final.publishedStreams[stream]? = none ↔ state.publishedStreams[stream]? = none ∧ visits = []
  messages : ∀ module,messagesFor stream module final.messages = messagesFor stream module state.messages ++
    (told module (state.knownModules stream) visits).map (⟨stream,module,·⟩)

lemma visitProcessor_visited (state : PublishState n) (stream : Bytes) (visit : Visit n) :
    Visited state (visitProcessor state visit) stream (visitsFor stream [visit]) := by
  have hinsert : (state.publishedStreams.insertIfNew visit.stream ())[stream]? = none ↔
      state.publishedStreams[stream]? = none ∧ visit.stream ≠ stream := by
    simp only [← Option.not_isSome_iff_eq_none,← Std.ExtTreeMap.mem_iff_isSome_getElem?,
      Std.ExtTreeMap.mem_insertIfNew,not_or,Std.compare_eq_iff_eq]
    exact and_comm
  by_cases hstream : visit.stream = stream
  · have hfor : visitsFor stream [visit] = [visit] := by simp [visitsFor,hstream]
    rw [hfor]
    refine ⟨?_,hinsert.trans (by simp [hstream]),fun module => ?_⟩
    · subst hstream
      exact Function.update_self ..
    · subst hstream
      rw [visitProcessor,messagesFor_append,messagesFor_moduleTotals]
      by_cases hmem : module ∈ updateKnownModules visit.now (state.knownModules visit.stream) visit.processor.modules <;>
        simp [told,hmem]
  · have hfor : visitsFor stream [visit] = [] := by simp [visitsFor,hstream]
    rw [hfor]
    refine ⟨?_,hinsert.trans (by simp [hstream]),fun module => ?_⟩
    · exact Function.update_of_ne (Ne.symm hstream) ..
    · rw [visitProcessor,messagesFor_append,messagesFor_moduleTotals,if_neg fun h => hstream h.1]
      rfl

lemma told_append (module : Bytes) (known : ZHash ℕ) (a b : List (Visit n)) :
    told module known (a ++ b) = told module known a ++ told module (tableAfter known a) b := by
  induction a generalizing known with
  | nil => rfl
  | cons visit a ih =>
    rw [List.cons_append,told,told,ih,List.append_assoc]
    rfl

lemma Visited.trans {a b c : PublishState n} {stream : Bytes} {visits others : List (Visit n)}
    (h : Visited a b stream visits) (h' : Visited b c stream others) : Visited a c stream (visits ++ others) where
  known := by rw [h'.known,h.known,tableAfter,tableAfter,tableAfter,List.foldl_append]
  published := by rw [h'.published,h.published,List.append_eq_nil_iff,and_assoc]
  messages module := by
    rw [h'.messages,h.messages,h.known,told_append,List.map_append,List.append_assoc]

theorem foldl_visitProcessor_visited (state : PublishState n) (stream : Bytes) (visits : List (Visit n)) :
    Visited state (visits.foldl visitProcessor state) stream (visitsFor stream visits) := by
  induction visits generalizing state with
  | nil => exact ⟨rfl,by simp [visitsFor],fun module => by simp [visitsFor,told]⟩
  | cons visit visits ih =>
    have hcons : visitsFor stream (visit::visits) = visitsFor stream [visit] ++ visitsFor stream visits :=
      List.filter_append [visit] visits
    rw [hcons]
    exact (visitProcessor_visited state stream visit).trans (ih (visitProcessor state visit))

/-- What the second loop does to a stream. -/
theorem foldl_visitStream (configured : Bytes → Bool) {activeStreams : List Bytes} (hnodup : activeStreams.Nodup)
    (state : PublishState n) (stream module : Bytes) :
    (activeStreams.foldl (visitStream configured) state).knownModules = state.knownModules ∧
    messagesFor stream module (activeStreams.foldl (visitStream configured) state).messages =
      messagesFor stream module state.messages ++
        if stream ∈ activeStreams ∧ configured stream ∧ state.publishedStreams[stream]? = none ∧
          module ∈ state.knownModules stream then [⟨stream,module,none⟩] else [] := by
  induction activeStreams generalizing state with
  | nil => simp
  | cons other activeStreams ih =>
    obtain ⟨hother,hnodup⟩ := List.nodup_cons.mp hnodup
    obtain ⟨hknown,hmessages⟩ := ih hnodup (visitStream configured state other)
    have hstep : (visitStream configured state other).knownModules = state.knownModules ∧
        (visitStream configured state other).publishedStreams = state.publishedStreams := by
      unfold visitStream
      split_ifs <;> exact ⟨rfl,rfl⟩
    rw [List.foldl_cons]
    refine ⟨hknown.trans hstep.1,hmessages.trans ?_⟩
    rw [hstep.1,hstep.2]
    by_cases hstream : other = stream
    · subst hstream
      rw [if_neg fun h => hother h.1,List.append_nil,visitStream]
      by_cases hvisit : configured other ∧ state.publishedStreams[other]? = none
      · rw [if_pos hvisit,messagesFor_append,messagesFor_moduleTotals]
        simp [hvisit.1,hvisit.2]
      · rw [if_neg hvisit,if_neg fun h => hvisit ⟨h.2.1,h.2.2.1⟩,List.append_nil]
    · have hskip : messagesFor stream module (visitStream configured state other).messages =
          messagesFor stream module state.messages := by
        unfold visitStream
        split_ifs
        · rw [messagesFor_append,messagesFor_moduleTotals,if_neg fun h => hstream h.1,List.append_nil]
        · rfl
      have hmem : stream ∈ other::activeStreams ↔ stream ∈ activeStreams := by
        rw [List.mem_cons,or_iff_right (Ne.symm hstream)]
      rw [hskip]
      exact congrArg _ (if_congr (and_congr_left fun _ => hmem.symm) rfl rfl)

/-! How often a module is told about. -/

/-- The clock is past the first day of 1970, and advances by at most a day. -/
structure Steady (visits : List (Visit n)) : Prop where
  clock : ∀ visit ∈ visits,AfterFirstDay visit.now
  day : ∀ first ∈ visits,∀ second ∈ visits,second.now ≤ first.now+oneDayMs

lemma Steady.head {visit : Visit n} {visits : List (Visit n)} (h : Steady (visit::visits)) : AfterFirstDay visit.now :=
  h.clock visit List.mem_cons_self

lemma Steady.tail {visit : Visit n} {visits : List (Visit n)} (h : Steady (visit::visits)) : Steady visits where
  clock v hv := h.clock v (List.mem_cons_of_mem _ hv)
  day first hfirst second hsecond := h.day first (List.mem_cons_of_mem _ hfirst) second (List.mem_cons_of_mem _ hsecond)

lemma mem_updateKnownModules_of_heard {known : ZHash ℕ} {visit : Visit n} (hclock : AfterFirstDay visit.now)
    (hheard : Heard visit.now known visit.processor.modules) :
    lit "all_pages" ∈ updateKnownModules visit.now known visit.processor.modules :=
  Std.ExtTreeMap.mem_iff_isSome_getElem?.mpr (updateKnownModules_of_heard hclock hheard ▸ rfl)

lemma length_told_of_heard {known : ZHash ℕ} {visit : Visit n} (visits : List (Visit n)) (hclock : AfterFirstDay visit.now)
    (hheard : Heard visit.now known visit.processor.modules) :
    (told (lit "all_pages") known (visit::visits)).length =
      (told (lit "all_pages") (updateKnownModules visit.now known visit.processor.modules) visits).length+1 := by
  rw [told,List.length_append,if_pos (mem_updateKnownModules_of_heard hclock hheard),List.length_singleton,Nat.add_comm]

/-- Once something has been heard, all_pages stays in the table and every visit tells about it. -/
lemma told_allPages {known : ZHash ℕ} {visit : Visit n} {visits : List (Visit n)}
    (hheard : Heard visit.now known visit.processor.modules) (hsteady : Steady (visit::visits)) :
    (told (lit "all_pages") known (visit::visits)).length = visits.length+1 ∧
      lit "all_pages" ∈ tableAfter known (visit::visits) := by
  induction visits generalizing known visit with
  | nil => exact ⟨length_told_of_heard [] hsteady.head hheard,mem_updateKnownModules_of_heard hsteady.head hheard⟩
  | cons next visits ih =>
    -- the next visit finds all_pages as young as the first one
    have hnext : Heard next.now (updateKnownModules visit.now known visit.processor.modules) next.processor.modules := by
      by_contra hsilent
      have hold := (not_heard_iff.mp hsilent).2 (lit "all_pages") visit.now (updateKnownModules_of_heard hsteady.head hheard)
      have hrecent := hsteady.day visit List.mem_cons_self next (List.mem_cons_of_mem _ List.mem_cons_self)
      omega
    obtain ⟨hlength,hmem⟩ := ih hnext hsteady.tail
    constructor
    · rw [length_told_of_heard _ hsteady.head hheard,hlength,List.length_cons]
    · rw [tableAfter,List.foldl_cons]
      exact hmem

lemma sumOfTotals_cons (visit : Visit n) (visits : List (Visit n)) :
    sumOfTotals (visit::visits) = visit.processor.totals+sumOfTotals visits := List.sum_cons

/-- The modules of a stream are told about once, with the sums. -/
def ToldOnce (known : ZHash ℕ) (visits : List (Visit n)) : Prop :=
  ∀ module ∈ tableAfter known visits,told module known visits = [(sumOfTotals visits)[module]?]

lemma toldOnce_singleton (known : ZHash ℕ) (visit : Visit n) : ToldOnce known [visit] := by
  intro module hmem
  have hmem : module ∈ updateKnownModules visit.now known visit.processor.modules := hmem
  rw [told,if_pos hmem,sumOfTotals,List.map_singleton,List.sum_singleton]
  rfl

/-- A visit that tells about all_pages is followed by another one. -/
lemma not_toldOnce_of_heard {known : ZHash ℕ} {visit : Visit n} {visits : List (Visit n)} (hne : visits ≠ [])
    (hsteady : Steady (visit::visits)) (hheard : Heard visit.now known visit.processor.modules) :
    ¬ToldOnce known (visit::visits) := by
  intro htold
  obtain ⟨hlength,hmem⟩ := told_allPages hheard hsteady
  have honce := congrArg List.length (htold (lit "all_pages") hmem)
  rw [hlength,List.length_singleton] at honce
  have hpos := List.length_pos_iff.mpr hne
  omega

/-- A visit that tells about nothing can be left out. -/
lemma toldOnce_cons_iff {known : ZHash ℕ} {visit : Visit n} {visits : List (Visit n)}
    (hclock : AfterFirstDay visit.now) (hentered : Entered visit.processor)
    (hsilent : ¬Heard visit.now known visit.processor.modules) :
    ToldOnce known (visit::visits) ↔ ToldOnce ∅ visits := by
  have hempty := updateKnownModules_of_not_heard hclock hsilent
  have htotals : visit.processor.totals = 0 := hentered (not_heard_iff.mp hsilent).1
  have htable : tableAfter known (visit::visits) = tableAfter ∅ visits := by
    rw [tableAfter,List.foldl_cons,hempty]
    rfl
  have htold (module : Bytes) : told module known (visit::visits) = told module ∅ visits := by
    rw [told,hempty,if_neg Std.ExtTreeMap.not_mem_empty,List.nil_append]
  unfold ToldOnce
  simp only [htable,htold,sumOfTotals_cons,htotals,zero_add]

theorem toldOnce_iff {known : ZHash ℕ} {visits : List (Visit n)} (hne : visits ≠ []) (hsteady : Steady visits)
    (hentered : ∀ visit ∈ visits,Entered visit.processor) : ToldOnce known visits ↔ OneSpeaks known visits := by
  induction visits generalizing known with
  | nil => exact absurd rfl hne
  | cons visit visits ih =>
    rw [List.forall_mem_cons] at hentered
    cases visits with
    | nil => exact iff_of_true (toldOnce_singleton known visit) (.inl le_rfl)
    | cons second visits =>
      have hlong : ¬(visit::second::visits).length ≤ 1 := by simp
      rw [OneSpeaks,or_iff_right hlong,List.dropLast_cons_cons,List.forall_mem_cons]
      by_cases hheard : Heard visit.now known visit.processor.modules
      · refine iff_of_false (not_toldOnce_of_heard (List.cons_ne_nil _ _) hsteady hheard) ?_
        rintro ⟨⟨hmodules,-⟩,hold⟩
        exact not_heard_iff.mpr ⟨hmodules,hold visit rfl⟩ hheard
      · obtain ⟨hmodules,hold⟩ := not_heard_iff.mp hheard
        rw [toldOnce_cons_iff hsteady.head hentered.1 hheard,ih (List.cons_ne_nil _ _) hsteady.tail hentered.2]
        constructor
        · intro hspeaks
          refine ⟨⟨hmodules,?_⟩,fun first hfirst => Option.some.inj hfirst ▸ hold⟩
          rcases hspeaks with hshort | ⟨hsilent,-⟩
          · have hnil : visits = [] := List.length_eq_zero_iff.mp (by simpa using hshort)
            simp [hnil]
          · exact hsilent
        · rintro ⟨⟨-,hsilent⟩,-⟩
          refine .inr ⟨hsilent,fun first _ module lastSeen hseen => ?_⟩
          rw [Std.ExtTreeMap.getElem?_empty] at hseen
          cases hseen

section Visits
variable {merged : ZHash (Processor n)} {now : Bytes → ℕ} (traversal : Traversal) (streamOf : Bytes → Bytes) (stream : Bytes)

lemma visitsFor_steady (hclock : ∀ db,AfterFirstDay (now db)) (hsteady : ∀ db other,now other ≤ now db+oneDayMs) :
    Steady (visitsFor stream (visitsOf traversal streamOf now merged)) where
  clock visit hvisit := by
    obtain ⟨db,-,hnow⟩ := exists_of_mem_visitsOf (List.mem_of_mem_filter hvisit)
    exact hnow ▸ hclock db
  day first hfirst second hsecond := by
    obtain ⟨db,-,hnow⟩ := exists_of_mem_visitsOf (List.mem_of_mem_filter hfirst)
    obtain ⟨other,-,hother⟩ := exists_of_mem_visitsOf (List.mem_of_mem_filter hsecond)
    rw [hnow,hother]
    exact hsteady db other

lemma visitsFor_entered (h : AllValues Entered merged) :
    ∀ visit ∈ visitsFor stream (visitsOf traversal streamOf now merged),Entered visit.processor := by
  intro visit hvisit
  obtain ⟨db,hp,-⟩ := exists_of_mem_visitsOf (List.mem_of_mem_filter hvisit)
  exact h db visit.processor hp

end Visits

/-- What a tick does to an active stream. -/
lemma publish_stream {configured : Bytes → Bool} {activeStreams : List Bytes} (hactive : activeStreams.Nodup)
    (knownModules : Bytes → ZHash ℕ) (visits : List (Visit n)) {stream : Bytes}
    (hstream : stream ∈ activeStreams) (hconfigured : configured stream = true) :
    (publishTotalsForEveryKnownStream configured activeStreams knownModules visits).knownModules stream =
        tableAfter (knownModules stream) (visitsFor stream visits) ∧
      ∀ module,messagesFor stream module
          (publishTotalsForEveryKnownStream configured activeStreams knownModules visits).messages =
        (told module (knownModules stream) (visitsFor stream visits)).map (⟨stream,module,·⟩) ++
          if visitsFor stream visits = [] ∧ module ∈ tableAfter (knownModules stream) (visitsFor stream visits) then
            [⟨stream,module,none⟩]
          else [] := by
  have hvisited := foldl_visitProcessor_visited ⟨knownModules,∅,[]⟩ stream visits
  have hsecond := foldl_visitStream configured hactive (visits.foldl visitProcessor ⟨knownModules,∅,[]⟩) stream
  refine ⟨?_,fun module => ?_⟩
  · rw [publishTotalsForEveryKnownStream,(hsecond []).1,hvisited.known]
  · rw [publishTotalsForEveryKnownStream,(hsecond module).2,hvisited.messages,hvisited.known]
    refine congrArg₂ _ (List.nil_append _) (if_congr ?_ rfl rfl)
    rw [hvisited.published]
    simp [hstream,hconfigured]

/-- With a single parser there is nothing to merge. -/
lemma merged_of_parseMsgs {env : Env n} {msgs : List ParsedMsg} {state : ParserState n}
    (h : parseMsgs env msgs = .ok state) : Merged env state.processors := by
  refine ⟨⟨[msgs],List.cons_ne_nil _ _,Controller.inOrder,Controller.inOrder⟩,[state],?_,?_⟩
  · rw [mapM_eq_ok_iff]
    exact .cons h .nil
  · rw [Controller.mergeProcessors_eq_sum _ (by simp)]
    simp

/-- The state after some messages, as the live stream sees it at a tick. -/
def sampleVisits (traversal : Traversal) (state : ParserState 10) : List (Visit 10) :=
  visitsOf traversal (fun _ => lit "shop-production") (fun _ => 2*oneDayMs) state.processors

def samplePublish (traversal : Traversal) (state : ParserState 10) : PublishState 10 :=
  publishTotalsForEveryKnownStream (fun _ => true) [lit "shop-production"] (fun _ => ∅) (sampleVisits traversal state)

/-- The same request on the next day. -/
def nextRequest : ParsedMsg :=
  { Controller.sampleRequest with
    request := .obj [(lit "action",.str (lit "Cart#show")),
      (lit "started_at",.str (lit "2026-02-01T00:00:00")),(lit "total_time",.int 25)] }

/-- Two requests before and after midnight that are processed in the same tick. -/
def PublishesTwice (traversal : Traversal) : Prop :=
  ∃ state,parseMsgs sampleEnv [Controller.sampleRequest,nextRequest] = .ok state ∧ Merged sampleEnv state.processors ∧
    (messagesFor (lit "shop-production") (lit "all_pages") (samplePublish traversal state).messages).length = 2 ∧
    ¬ExactlyOnce (fun _ => true) [lit "shop-production"] (fun _ => ∅) (sampleVisits traversal state)

lemma publishesTwice_of {traversal : Traversal}
    (hpublish : (parseMsgs sampleEnv [Controller.sampleRequest,nextRequest]).toOption.map (fun state =>
      ((messagesFor (lit "shop-production") (lit "all_pages") (samplePublish traversal state).messages).length,
        ((samplePublish traversal state).knownModules (lit "shop-production")).contains (lit "all_pages"))) =
      some (2,true)) : PublishesTwice traversal := by
  obtain ⟨state,h,hvalues⟩ := exists_ok_of_toOption_map hpublish
  obtain ⟨htwice,hknown⟩ := Prod.mk.inj hvalues
  refine ⟨state,h,merged_of_parseMsgs h,htwice,fun honce => ?_⟩
  have hmessages := honce (lit "shop-production") List.mem_cons_self rfl (lit "all_pages")
    (Std.ExtTreeMap.mem_iff_contains.mpr hknown)
  have hsame : messagesFor (lit "shop-production") (lit "all_pages") (samplePublish traversal state).messages = [_] := hmessages
  rw [hsame] at htwice
  cases htwice

end Logjam.LiveStream
