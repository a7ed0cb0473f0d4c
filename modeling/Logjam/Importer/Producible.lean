import Logjam.Importer.Controller
import Logjam.Library.Ensures

/-! The increments that request processing can produce, and what is known of them: each metric is
made of single values with their squares and maxima, and dynamic counters have dotted names. -/
namespace Logjam.Importer
open Logjam.Library Logjam.Library.MergeMap

variable {n : ℕ}

/-- Increments of one message, or of several messages added up. -/
inductive Producible (env : Env n) : Increments n → Prop
  | backend {request totalTime responseCode severity exceptions softExceptions incs}
      (h : backendIncrements env request totalTime responseCode severity exceptions softExceptions =
        .ok incs) : Producible env incs
  | page (request totalTime timings) : Producible env (pageIncrements env request totalTime timings)
  | ajax (request totalTime) : Producible env (ajaxIncrements env request totalTime)
  | jsException (jsException) : Producible env (jsExceptionIncrements jsException)
  | add {a b} (ha : Producible env a) (hb : Producible env b) : Producible env (incrementsAdd a b)

structure MetricPair.Sound (m : MetricPair) : Prop where
  squared_nonneg : 0 ≤ m.valSquared
  eq_zero : m.valSquared = 0 → m.val = 0 ∧ m.valMax = 0
  max_pos : 0 < m.val → 0 < m.valMax

structure Increments.Sound (incs : Increments n) : Prop where
  metrics : ∀ i, (incs.metrics i).Sound
  dotted : ∀ key ∈ incs.others, (46 : UInt8) ∈ key

lemma MetricPair.sound_zero : MetricPair.Sound ⟨0,0,0⟩ where
  squared_nonneg := le_refl 0
  eq_zero _ := ⟨rfl,rfl⟩
  max_pos h := h

lemma MetricPair.sound_value (x : ℚ) : MetricPair.Sound ⟨x,x*x,x⟩ where
  squared_nonneg := mul_self_nonneg x
  eq_zero h := ⟨mul_self_eq_zero.mp h,mul_self_eq_zero.mp h⟩
  max_pos h := h

lemma MetricPair.Sound.add {a b : MetricPair} (ha : a.Sound) (hb : b.Sound) : (a+b).Sound where
  squared_nonneg := add_nonneg ha.squared_nonneg hb.squared_nonneg
  eq_zero h := by
    obtain ⟨hsa,hsb⟩ := (add_eq_zero_iff_of_nonneg ha.squared_nonneg hb.squared_nonneg).mp h
    obtain ⟨hva,hma⟩ := ha.eq_zero hsa
    obtain ⟨hvb,hmb⟩ := hb.eq_zero hsb
    simp [hva,hvb,hma,hmb]
  max_pos h := by
    rw [add_valMax]
    rcases lt_or_ge 0 a.val with hpos | hneg
    · exact lt_max_of_lt_left (ha.max_pos hpos)
    · have hb' : 0 < b.val := by
        rw [add_val] at h
        linarith
      exact lt_max_of_lt_right (hb.max_pos hb')

lemma Increments.sound_new : (incrementsNew : Increments n).Sound where
  metrics _ := MetricPair.sound_zero
  dotted _ h := absurd h Std.ExtTreeMap.not_mem_empty

lemma Increments.Sound.countOne {incs : Increments n} (h : incs.Sound) {key : Bytes}
    (hkey : (46 : UInt8) ∈ key) : (incs.countOne key).Sound where
  metrics := h.metrics
  dotted k hk := by
    rcases Std.ExtTreeMap.mem_insert.mp hk with heq | hk
    · exact Std.compare_eq_iff_eq.mp heq ▸ hkey
    · exact h.dotted k hk

lemma Increments.Sound.fillMetrics {incs : Increments n} (h : incs.Sound) (lib : JsonLib)
    (res : Resources n) (request : JObject) : (incrementsFillMetrics lib res incs request).Sound where
  metrics i := by
    simp only [incrementsFillMetrics]
    split
    · exact MetricPair.sound_value _
    · exact h.metrics i
  dotted := h.dotted

lemma Increments.Sound.fillApdexGroup {incs : Increments n} (h : incs.Sound) (group : Bytes)
    (happy satisfied tolerating time : ℚ) :
    (Importer.fillApdexGroup group happy satisfied tolerating incs time).1.Sound := by
  have hdot : ∀ s, (46 : UInt8) ∈ s → (46 : UInt8) ∈ group ++ s := fun s hs => List.mem_append_right _ hs
  unfold Importer.fillApdexGroup
  split_ifs
  · exact (h.countOne (hdot _ (by decide))).countOne (hdot _ (by decide))
  · exact h.countOne (hdot _ (by decide))
  · exact h.countOne (hdot _ (by decide))
  · exact h.countOne (hdot _ (by decide))

/-- A short prefix survives the cut of snprintf. -/
lemma mem_snprintf_of_mem {size : ℕ} {front rest : Bytes} (hlen : front.length < size) {c : UInt8}
    (hc : c ∈ front) : c ∈ snprintf size (front ++ rest) := by
  have htake : (front ++ rest).take (size-1) = front ++ rest.take (size-1-front.length) := by
    rw [List.take_append,List.take_of_length_le (by omega)]
  rw [snprintf,htake]
  exact List.mem_append_left _ hc

lemma Increments.Sound.fillExceptionGroup {incs : Increments n} (h : incs.Sound) (lib : JsonLib)
    {group : Bytes} (hgroup : (46 : UInt8) ∈ group) (exceptions : Option Json) :
    Ensures (Importer.fillExceptionGroup lib group incs exceptions) Increments.Sound := by
  unfold Importer.fillExceptionGroup
  cases exceptions with
  | none => exact Ensures.ok h
  | some v =>
    refine (ensures_true _).bind fun xs _ => Ensures.foldlM ?_ h
    intro stored hstored x _
    exact (ensures_true _).bind fun s _ =>
      Ensures.ok (hstored.countOne (List.mem_append_left _ hgroup))

lemma Increments.Sound.fillPeerInfo {incs : Increments n} (h : incs.Sound) (lib : JsonLib)
    (action id separator : Bytes) {group : Bytes} (hgroup : (46 : UInt8) ∈ group) (request : JObject) :
    (Importer.fillPeerInfo lib action id group separator incs request).Sound := by
  unfold Importer.fillPeerInfo
  split
  · split
    · refine h.countOne ?_
      simp only [List.append_assoc]
      exact List.mem_append_left _ hgroup
    · exact h
  · exact h

/-- Increments that only count requests. -/
lemma Increments.sound_counts (b p a : ℕ) : (⟨b,p,a,fun _ => ⟨0,0,0⟩,∅⟩ : Increments n).Sound where
  metrics _ := MetricPair.sound_zero
  dotted _ h := absurd h Std.ExtTreeMap.not_mem_empty

lemma backendIncrements_sound (env : Env n) (request : JObject) (totalTime : ℚ) (responseCode severity : ℤ)
    (exceptions softExceptions : Option Json) :
    Ensures (backendIncrements env request totalTime responseCode severity exceptions softExceptions)
      Increments.Sound := by
  have hfilled := (Increments.sound_counts (n := n) 1 0 0).fillMetrics env.json env.res request
  have hapdex := hfilled.fillApdexGroup (lit "apdex") 100 500 2000 totalTime
  have hcode : (46 : UInt8) ∈ snprintf 256 (lit "response." ++ decimalInt responseCode) :=
    mem_snprintf_of_mem (by decide) (by decide)
  have hseverity : (46 : UInt8) ∈ snprintf 256 (lit "severity." ++ decimalInt severity) :=
    mem_snprintf_of_mem (by decide) (by decide)
  have hcounted := (hapdex.countOne hcode).countOne hseverity
  have hcaller := hcounted.fillPeerInfo env.json (lit "caller_action") (lit "caller_id") (lit "@")
    (show 46 ∈ lit "callers." by decide) request
  have hsender := hcaller.fillPeerInfo env.json (lit "sender_action") (lit "sender_id") (lit "-")
    (show 46 ∈ lit "senders." by decide) request
  exact (hsender.fillExceptionGroup env.json (by decide) exceptions).bind fun _ hhard =>
    hhard.fillExceptionGroup env.json (by decide) softExceptions

lemma Increments.Sound.add {a b : Increments n} (ha : a.Sound) (hb : b.Sound) : (a+b).Sound where
  metrics i := (ha.metrics i).add (hb.metrics i)
  dotted key h := by
    rw [add_others] at h
    rcases mem_or_mem_of_mem_add h with h | h
    · exact ha.dotted key h
    · exact hb.dotted key h

theorem Producible.sound {env : Env n} {incs : Increments n} (h : Producible env incs) : incs.Sound := by
  induction h with
  | backend h => exact backendIncrements_sound _ _ _ _ _ _ _ _ h
  | page request totalTime timings =>
    exact (((Increments.sound_counts 0 1 0).fillMetrics env.json env.res request).fillApdexGroup
      (lit "fapdex") 500 2000 8000 totalTime).fillApdexGroup (lit "papdex") 500 2000 8000 _
  | ajax request totalTime =>
    exact (((Increments.sound_counts 0 0 1).fillMetrics env.json env.res request).fillApdexGroup
      (lit "fapdex") 500 2000 8000 totalTime).fillApdexGroup (lit "xapdex") 500 2000 8000 totalTime
  | jsException jsException =>
    exact Increments.sound_new.countOne (List.mem_append_left _ (by decide))
  | add _ _ iha ihb => exact iha.add ihb

/-! What holds of every increments object of a processor. -/

structure AllIncrements (P : Increments n → Prop) (p : Processor n) : Prop where
  totals : AllValues P p.totals
  minutes : AllValues P p.minutes

variable {env : Env n} {self : Processor n}

namespace AllIncrements

variable {P : Increments n → Prop}

lemma addQuants (h : AllIncrements P self) (res : Resources n) (ns : Bytes) (incs : Increments n) :
    Ensures (processorAddQuants res self ns incs) (AllIncrements P) := by
  refine Ensures.foldlM ?_ h
  intro p hp i _
  refine Ensures.ite (fun _ => ?_) (fun _ => Ensures.ok hp)
  split
  · exact Ensures.ok hp
  · exact (ensures_true _).bind fun _ _ => (ensures_true _).bind fun _ _ =>
      Ensures.ok ⟨hp.totals,hp.minutes⟩

lemma addHistogram (h : AllIncrements P self) (ns : Bytes) (minute : ℤ) (resource : Bytes)
    (timeIndex : Fin n) (incs : Increments n) :
    AllIncrements P (processorAddHistogram self ns minute resource timeIndex incs) := by
  simp only [processorAddHistogram]
  split
  · exact h
  · exact ⟨h.totals,h.minutes⟩

lemma updateAgent (h : AllIncrements P self) (agent : Option Bytes) (f : UserAgentStats → UserAgentStats) :
    AllIncrements P (Importer.updateAgent self agent f) := by
  cases agent with
  | none => exact h
  | some a => exact ⟨h.totals,h.minutes⟩

variable (hP : ∀ a b,P a → P b → P (a+b)) {incs : Increments n} (hincs : P incs)
include hP hincs

lemma combineAt {hash : ZHash (Increments n)} (h : AllValues P hash) (key : Bytes) :
    AllValues P (MergeMap.combineAt incrementsAdd hash key incs) := by
  have hadd : MergeMap.combineAt incrementsAdd hash key incs = hash+single key incs :=
    combineAt_eq_add_single hash key incs
  rw [hadd]
  exact h.add hP (allValues_single hincs)

lemma addTotals (h : AllIncrements P self) (ns : Bytes) : AllIncrements P (processorAddTotals self ns incs) :=
  ⟨combineAt hP hincs h.totals ns,h.minutes⟩

lemma addMinutes (h : AllIncrements P self) (ns : Bytes) (minute : ℤ) :
    AllIncrements P (processorAddMinutes self ns minute incs) :=
  ⟨h.totals,combineAt hP hincs h.minutes _⟩

lemma addAggregates (h : AllIncrements P self) (page module : Bytes) (minute : ℤ) (resource : Bytes)
    (timeIndex : Fin n) :
    Ensures (Importer.addAggregates env self page module minute resource timeIndex incs) (AllIncrements P) := by
  have htotals := ((h.addTotals hP hincs page).addTotals hP hincs module).addTotals hP hincs (lit "all_pages")
  have hminutes := ((htotals.addMinutes hP hincs page minute).addMinutes hP hincs module minute).addMinutes
    hP hincs (lit "all_pages") minute
  exact (hminutes.addQuants env.res page incs).bind fun p hp => Ensures.ok
    (((hp.addHistogram page minute resource timeIndex incs).addHistogram module minute resource
      timeIndex incs).addHistogram (lit "all_pages") minute resource timeIndex incs)

end AllIncrements

/-! Every increments object that a parser or an adder holds is producible. -/

def Stored (env : Env n) (hash : ZHash (Increments n)) : Prop :=
  ∀ (key : Bytes) incs, hash[key]? = some incs → Producible env incs

structure Processor.Stored (env : Env n) (p : Processor n) : Prop where
  totals : Importer.Stored env p.totals
  minutes : Importer.Stored env p.minutes

lemma Processor.Stored.allIncrements (h : self.Stored env) : AllIncrements (Producible env) self :=
  ⟨h.totals,h.minutes⟩

lemma AllIncrements.stored (h : AllIncrements (Producible env) self) : self.Stored env := ⟨h.totals,h.minutes⟩

lemma Producible.plus (a b : Increments n) (ha : Producible env a) (hb : Producible env b) : Producible env (a+b) :=
  ha.add hb

lemma stored_empty (env : Env n) : Stored env ∅ := by
  intro key incs h
  rw [Std.ExtTreeMap.getElem?_empty] at h
  cases h

lemma Processor.Stored.setupModule (h : self.Stored env) (page : Bytes) :
    Ensures (processorSetupModule self page) fun r => r.2.Stored env :=
  (ensures_true _).bind fun _ _ => Ensures.ok ⟨h.totals,h.minutes⟩

lemma Processor.Stored.updateAgent (h : self.Stored env) (agent : Option Bytes)
    (f : UserAgentStats → UserAgentStats) : (Importer.updateAgent self agent f).Stored env :=
  (h.allIncrements.updateAgent agent f).stored

lemma Processor.Stored.addAggregates (h : self.Stored env) (page module : Bytes) (minute : ℤ)
    (resource : Bytes) (timeIndex : Fin n) {incs : Increments n} (hincs : Producible env incs) :
    Ensures (Importer.addAggregates env self page module minute resource timeIndex incs)
      (Processor.Stored env) := fun p hp =>
  (h.allIncrements.addAggregates Producible.plus hincs page module minute resource timeIndex p hp).stored

lemma Processor.Stored.addRequest (h : self.Stored env) (info : StreamInfo) (request : JObject) :
    Ensures (processorAddRequest env info self request) (Processor.Stored env) := by
  unfold processorAddRequest
  refine Ensures.ite (fun _ => Ensures.ok h) (fun _ => ?_)
  refine (ensures_true _).bind fun _ _ => (h.setupModule _).bind fun _ hself => ?_
  refine (ensures_true _).bind fun _ _ => (ensures_true _).bind fun _ _ =>
    (ensures_true _).bind fun _ _ => (ensures_true _).bind fun _ _ => ?_
  refine Ensures.bind (fun incs hincs => Producible.backend hincs) fun incs hincs => ?_
  exact (hself.addAggregates _ _ _ _ _ hincs).bind fun _ hp => Ensures.ok (hp.updateAgent _ _)

lemma Processor.Stored.addJsException (h : self.Stored env) (request : JObject) :
    Ensures (processorAddJsException env self request) (Processor.Stored env) := by
  unfold processorAddJsException
  refine (ensures_true _).bind fun _ _ => (ensures_true _).bind fun jsException _ => ?_
  refine Ensures.ite (fun _ => Ensures.ok h) fun _ => ?_
  refine (ensures_true _).bind fun _ _ => (h.setupModule _).bind fun _ hself => Ensures.ok ?_
  have hincs : Producible env (jsExceptionIncrements jsException) := .jsException jsException
  have hcount {p : Processor n} (hp : AllIncrements (Producible env) p) (ns : Bytes) (minute : ℤ) :=
    (hp.addTotals Producible.plus hincs ns).addMinutes Producible.plus hincs ns minute
  have hall := hcount hself.allIncrements (lit "all_pages")
  refine AllIncrements.stored ?_
  split_ifs
  · exact hcount (hcount (hall _) _ _) _ _
  · exact hcount (hall _) _ _
  · exact hcount (hall _) _ _
  · exact hall _

lemma Processor.Stored.addUserAgent (h : self.Stored env) (agent : Option Bytes)
    (reason : FeMsgDropReason) : (processorAddUserAgent self agent reason).Stored env :=
  h.updateAgent agent _

lemma Processor.Stored.addFrontendData (h : self.Stored env) (request : JObject) (tracked : Bool) :
    Ensures (processorAddFrontendData env self request tracked) fun r => r.2.Stored env := by
  unfold processorAddFrontendData
  refine (ensures_true _).bind fun timings _ => ?_
  cases timings with
  | none => exact Ensures.ok (h.addUserAgent _ _)
  | some timings =>
    refine Ensures.ite (fun _ => Ensures.ok (h.addUserAgent _ _)) fun _ => ?_
    refine Ensures.ite (fun _ => Ensures.ok (h.addUserAgent _ _)) fun _ => ?_
    refine (ensures_true _).bind fun _ _ => (h.setupModule _).bind fun _ hself => ?_
    refine (ensures_true _).bind fun _ _ => ?_
    refine Ensures.ite (fun _ => Ensures.ok (hself.addUserAgent _ _)) fun _ => ?_
    exact (hself.addAggregates _ _ _ _ _ (.page _ _ _)).bind fun _ hp => Ensures.ok (hp.addUserAgent _ _)

lemma Processor.Stored.addAjaxData (h : self.Stored env) (request : JObject) (tracked : Bool) :
    Ensures (processorAddAjaxData env self request tracked) fun r => r.2.Stored env := by
  unfold processorAddAjaxData
  refine (ensures_true _).bind fun timings _ => ?_
  cases timings with
  | none => exact Ensures.ok (h.addUserAgent _ _)
  | some timings =>
    refine Ensures.ite (fun _ => Ensures.ok (h.addUserAgent _ _)) fun _ => ?_
    refine Ensures.ite (fun _ => Ensures.ok (h.addUserAgent _ _)) fun _ => ?_
    refine (ensures_true _).bind fun _ _ => (h.setupModule _).bind fun _ hself => ?_
    refine (ensures_true _).bind fun _ _ => ?_
    refine Ensures.ite (fun _ => Ensures.ok (hself.addUserAgent _ _)) fun _ => ?_
    exact (hself.addAggregates _ _ _ _ _ (.ajax _ _)).bind fun _ hp => Ensures.ok (hp.addUserAgent _ _)

def ParserState.Stored (env : Env n) (state : ParserState n) : Prop :=
  ∀ (dbName : Bytes) p, state.processors[dbName]? = some p → p.Stored env

/-- The processor a message is filed with, with the message counted. -/
lemma ParserState.Stored.lookup {state : ParserState n} (h : state.Stored env) (dbName : Bytes) :
    let processor := (state.processors[dbName]?).getD processorNew
    Processor.Stored env { processor with requestCount := processor.requestCount+1 } := by
  cases hp : state.processors[dbName]? with
  | none => exact ⟨stored_empty env,stored_empty env⟩
  | some p => exact ⟨(h dbName p hp).totals,(h dbName p hp).minutes⟩

lemma ParserState.Stored.insert {state : ParserState n} (h : state.Stored env) {dbName : Bytes}
    {p : Processor n} (hp : p.Stored env) (stats : FrontendStats) :
    ParserState.Stored env ⟨state.processors.insert dbName p,stats⟩ := by
  intro name q hq
  have hv := value_insert state.processors dbName name p
  by_cases hn : dbName = name
  · rw [if_pos hn] at hv
    exact Option.some.inj (hv.symm.trans hq) ▸ hp
  · rw [if_neg hn] at hv
    exact h name q (hv.symm.trans hq)

lemma ParserState.Stored.withProcessor {state : ParserState n} (h : state.Stored env) (dbName : Bytes)
    {handler : Processor n → Except Fault (Processor n)}
    (hh : ∀ p, Processor.Stored env p → Ensures (handler p) (Processor.Stored env)) :
    Ensures (Importer.withProcessor state dbName handler) (ParserState.Stored env) :=
  (hh _ (h.lookup dbName)).bind fun _ hp => Ensures.ok (h.insert hp _)

lemma ParserState.Stored.withFrontendProcessor {state : ParserState n} (h : state.Stored env)
    (dbName : Bytes) {handler : Processor n → Except Fault (FeMsgDropReason × Processor n)}
    (hh : ∀ p, Processor.Stored env p → Ensures (handler p) fun r => r.2.Stored env) :
    Ensures (Importer.withFrontendProcessor state dbName handler) (ParserState.Stored env) :=
  (hh _ (h.lookup dbName)).bind fun _ hp => Ensures.ok (h.insert hp _)

/-- Whatever message a parser gets, with whatever settings, its totals and minutes hold producible increments only. -/
theorem ParserState.Stored.handleMsg {state : ParserState n} (h : state.Stored env) (dbName : Bytes) (info : StreamInfo)
    (msg : ParsedMsg) : Ensures (Importer.handleMsg env dbName info state msg) (ParserState.Stored env) := by
  refine Ensures.ite (fun _ => h.withProcessor _ fun _ hp => hp.addRequest _ _) fun _ => ?_
  refine Ensures.ite (fun _ => h.withProcessor _ fun _ hp => hp.addJsException _) fun _ => ?_
  refine Ensures.ite (fun _ => h.withProcessor _ fun _ hp =>
    (ensures_true _).bind fun _ _ => Ensures.ok hp) fun _ => ?_
  refine Ensures.ite (fun _ => h.withFrontendProcessor _ fun _ hp => hp.addFrontendData _ _) fun _ => ?_
  refine Ensures.ite (fun _ => h.withFrontendProcessor _ fun _ hp => hp.addAjaxData _ _) fun _ => ?_
  exact h.withProcessor _ fun _ hp => Ensures.ok hp

end Logjam.Importer
