import Logjam.Importer.Filing
import Logjam.Importer.Aggregate
import Logjam.Importer.Selectors
import Logjam.Library.MergeSum

/-! The aggregates of a processor agree with each other, whatever messages it gets. Each law is an
equation between sums over the aggregates, and every message adds the same to both sides. -/
namespace Logjam.Importer
open Logjam.Library Logjam.Library.MergeMap

variable {n : ℕ}

/-! Keys. A key that fits its buffer is the text it was composed as. -/

def minutesText (minute : ℤ) (ns : Bytes) : Bytes := decimal (sizeOfInt minute) ++ lit "-" ++ ns

def histogramText (resource : Bytes) (minute : ℤ) (ns : Bytes) : Bytes :=
  decimalInt minute ++ lit "-" ++ resource ++ lit "-" ++ ns

def quantsText (kind : UInt8) (quant : ℕ) (ns : Bytes) : Bytes :=
  kind::lit "-" ++ decimal quant ++ lit "-" ++ ns

/-- The values of an int. -/
def ints : Set ℤ := Set.Ico (-2^31) (2^31)

lemma minutesText_inj {m m' : ℤ} {ns ns' : Bytes} (hm : m ∈ ints) (hm' : m' ∈ ints)
    (h : minutesText m ns = minutesText m' ns') : m = m' ∧ ns = ns' := by
  rw [minutesText,minutesText,List.append_assoc,List.append_assoc] at h
  obtain ⟨hsize,hns⟩ := decimal_dash_inj h
  exact ⟨sizeOfInt_inj hm hm' hsize,hns⟩

lemma histogramText_inj {clock clock' : Clock} {m m' : ℤ} {ns ns' : Bytes}
    (h : histogramText clock.resource m ns = histogramText clock'.resource m' ns') :
    clock = clock' ∧ m = m' ∧ ns = ns' := by
  have hdash (c : Clock) : 45 ∉ c.resource := by cases c <;> decide
  simp only [histogramText,List.append_assoc] at h
  obtain ⟨rfl,hrest⟩ := decimalInt_dash_inj h
  have hscan := (scanResource_append (hdash clock) ns).symm.trans
    (hrest ▸ scanResource_append (hdash clock') ns')
  obtain ⟨hresource,hns⟩ := Prod.mk.inj (Except.ok.inj hscan)
  refine ⟨?_,rfl,List.append_cancel_left hns⟩
  cases clock <;> cases clock' <;> first | rfl | exact absurd hresource (by decide)

lemma quantsText_inj {kind kind' : UInt8} {quant quant' : ℕ} {ns ns' : Bytes}
    (h : quantsText kind quant ns = quantsText kind' quant' ns') :
    kind = kind' ∧ quant = quant' ∧ ns = ns' := by
  simp only [quantsText,List.cons_append,List.append_assoc,List.cons.injEq] at h
  obtain ⟨rfl,hrest⟩ := h
  obtain ⟨rfl,rfl⟩ := decimal_dash_inj (List.append_cancel_left hrest)
  exact ⟨rfl,rfl,rfl⟩

/-! The laws. -/

/-- The requests counted by an entry. -/
noncomputable def Clock.requests (clock : Clock) : WithZero (Increments n) →+ ℕ :=
  WithZero.lift ⟨fun incs => clock.requestCount incs,fun a b => by cases clock <;> rfl⟩

/-- The requests counted by a histogram. -/
noncomputable def bucketSum {size : ℕ} : WithZero (Fin size → ℕ) →+ ℕ :=
  WithZero.lift ⟨fun histogram => ∑ i,histogram i,fun _ _ => Finset.sum_add_distrib⟩

lemma Clock.requests_coe (clock : Clock) (incs : Increments n) :
    clock.requests (incs : WithZero (Increments n)) = clock.requestCount incs := rfl

lemma bucketSum_single {size : ℕ} (i : Fin size) :
    bucketSum ((Pi.single i 1 : Fin size → ℕ) : WithZero (Fin size → ℕ)) = 1 := by
  change ∑ j,(Pi.single i 1 : Fin size → ℕ) j = 1
  rw [Finset.sum_pi_single',if_pos (Finset.mem_univ i)]

/-- The namespaces of pages and modules. -/
def proper : Set Bytes := {ns | ns ≠ lit "all_pages"}

structure Balanced (p : Processor n) : Prop where
  totals : ∀ ns,value p.totals ns = ∑ᶠ minute ∈ ints,value p.minutes (minutesText minute ns)
  histograms : ∀ (clock : Clock) ns,∀ minute ∈ ints,
    bucketSum (value p.histograms (histogramText clock.resource minute ns)) =
      clock.requests (value p.minutes (minutesText minute ns))
  requests : ∀ clock : Clock,∑ᶠ ns ∈ proper,clock.requests (value p.totals ns) =
    2*clock.requests (value p.totals (lit "all_pages"))
  quants : ∀ kind quant,value p.quants (quantsText kind quant (lit "all_pages")) =
    ∑ᶠ ns ∈ proper,value p.quants (quantsText kind quant ns)

/-- One law each, as far as it is about single aggregates. -/
def TotalsLaw (totals minutes : ZHash (Increments n)) : Prop :=
  ∀ ns,value totals ns = sumAlong (.id _) (minutesText · ns) ints minutes

def HistogramsLaw (histograms : ZHash (Fin histogramSize → ℕ)) (minutes : ZHash (Increments n)) : Prop :=
  ∀ (clock : Clock) ns,∀ minute ∈ ints,
    bucketSum (value histograms (histogramText clock.resource minute ns)) =
      clock.requests (value minutes (minutesText minute ns))

def RequestsLaw (totals : ZHash (Increments n)) : Prop :=
  ∀ clock : Clock,sumAlong clock.requests id proper totals =
    2*clock.requests (value totals (lit "all_pages"))

def QuantsLaw (quants : ZHash (Fin n → ℕ)) : Prop :=
  ∀ kind quant,value quants (quantsText kind quant (lit "all_pages")) =
    sumAlong (.id _) (quantsText kind quant) proper quants

lemma balanced_iff (p : Processor n) : Balanced p ↔ TotalsLaw p.totals p.minutes ∧
    HistogramsLaw p.histograms p.minutes ∧ RequestsLaw p.totals ∧ QuantsLaw p.quants :=
  ⟨fun h => ⟨h.totals,h.histograms,h.requests,h.quants⟩,fun h => ⟨h.1,h.2.1,h.2.2.1,h.2.2.2⟩⟩

lemma injOn_minutesText (ns : Bytes) : Set.InjOn (minutesText · ns) ints :=
  fun _ hm _ hm' h => (minutesText_inj hm hm' h).1

lemma injOn_quantsText (kind : UInt8) (quant : ℕ) : Set.InjOn (quantsText kind quant) proper :=
  fun _ _ _ _ h => (quantsText_inj h).2.2

/-- One entry more for the same namespace on both sides. -/
lemma TotalsLaw.add {totals minutes : ZHash (Increments n)} (h : TotalsLaw totals minutes) {minute : ℤ}
    (hminute : minute ∈ ints) (ns : Bytes) (incs : Increments n) :
    TotalsLaw (totals+single ns incs) (minutes+single (minutesText minute ns) incs) := by
  intro ns'
  rw [value_add,value_single,sumAlong_add _ (injOn_minutesText ns'),h ns']
  by_cases hns : ns = ns'
  · subst ns'
    rw [if_pos rfl]
    exact congrArg _ (sumAlong_single_of_mem (.id _) (injOn_minutesText ns) hminute incs).symm
  · have hne : ∀ m ∈ ints,minutesText m ns' ≠ minutesText minute ns := fun m hm heq =>
      hns (minutesText_inj hm hminute heq).2.symm
    rw [if_neg hns,sumAlong_single_of_notMem _ hne]

/-- An entry without requests is none that histograms know of. -/
lemma HistogramsLaw.addCounters {histograms : ZHash (Fin histogramSize → ℕ)} {minutes : ZHash (Increments n)}
    (h : HistogramsLaw histograms minutes) {incs : Increments n}
    (hincs : ∀ clock : Clock,clock.requestCount incs = 0) (key : Bytes) :
    HistogramsLaw histograms (minutes+single key incs) := by
  intro clock ns m hm
  rw [value_add,value_single,map_add,← h clock ns m hm]
  split_ifs
  · rw [Clock.requests_coe,hincs clock,add_zero]
  · rw [map_zero,add_zero]

/-- A request is counted by one bucket of the histogram of its time. -/
lemma HistogramsLaw.add {histograms : ZHash (Fin histogramSize → ℕ)} {minutes : ZHash (Increments n)}
    (h : HistogramsLaw histograms minutes) {minute : ℤ} (hminute : minute ∈ ints) {clock : Clock}
    {incs : Increments n}
    (hincs : ∀ other : Clock,other.requestCount incs = if some clock = some other then 1 else 0)
    (ns : Bytes) (i : Fin histogramSize) :
    HistogramsLaw (histograms+single (histogramText clock.resource minute ns) (Pi.single i 1))
      (minutes+single (minutesText minute ns) incs) := by
  intro other ns' m hm
  rw [value_add,value_add,value_single,value_single,map_add,map_add,h other ns' m hm]
  -- the new entries are of this namespace and minute on both sides or on neither
  by_cases hsame : minute = m ∧ ns = ns'
  · obtain ⟨rfl,rfl⟩ := hsame
    rw [if_pos rfl,Clock.requests_coe,hincs other]
    by_cases hclock : clock = other
    · subst other
      rw [if_pos rfl,if_pos rfl,bucketSum_single]
    · rw [if_neg fun heq => hclock (histogramText_inj heq).1,if_neg fun heq => hclock (Option.some.inj heq),
        map_zero]
  · rw [if_neg fun heq => hsame (histogramText_inj heq).2,
      if_neg fun heq => hsame (minutesText_inj hminute hm heq),map_zero,map_zero]

lemma RequestsLaw.addCounters {totals : ZHash (Increments n)} (h : RequestsLaw totals) {incs : Increments n}
    (hincs : ∀ clock : Clock,clock.requestCount incs = 0) (ns : Bytes) :
    RequestsLaw (totals+single ns incs) := by
  intro clock
  have hzero : clock.requests (incs : WithZero (Increments n)) = 0 := hincs clock
  have hsum : sumAlong clock.requests id proper (single ns incs) = 0 := by
    by_cases hns : ns = lit "all_pages"
    · have hnot : ∀ m ∈ proper,id m ≠ ns := fun _ hm heq => hm (heq.trans hns)
      exact sumAlong_single_of_notMem clock.requests hnot incs
    · exact (sumAlong_single_of_mem clock.requests (Set.injOn_id proper) hns incs).trans hzero
  rw [sumAlong_add clock.requests (Set.injOn_id proper),hsum,h clock,value_add,value_single,map_add]
  split_ifs
  · rw [hzero,add_zero,add_zero]
  · rw [map_zero,add_zero,add_zero]

/-- A request counts twice, for its page and for its module. -/
lemma RequestsLaw.add {totals : ZHash (Increments n)} (h : RequestsLaw totals) {page module : Bytes}
    (hpage : page ≠ lit "all_pages") (hmodule : module ≠ lit "all_pages") (incs : Increments n) :
    RequestsLaw (totals+single page incs+single module incs+single (lit "all_pages") incs) := by
  intro clock
  have hproper {ns : Bytes} (hns : ns ≠ lit "all_pages") :
      sumAlong clock.requests id proper (single ns incs) = clock.requests (incs : WithZero (Increments n)) :=
    sumAlong_single_of_mem clock.requests (Set.injOn_id proper) hns incs
  have hall : sumAlong clock.requests id proper (single (lit "all_pages") incs) = 0 :=
    sumAlong_single_of_notMem clock.requests (fun _ hns => hns) incs
  have hadd := sumAlong_add (clock.requests (n := n)) (Set.injOn_id proper)
  rw [hadd,hadd,hadd,hproper hpage,hproper hmodule,hall,h clock]
  simp only [value_add,value_single,if_neg hpage,if_neg hmodule,if_true,add_zero,map_add]
  ring

/-- A quant is counted for a page and for all pages. -/
lemma QuantsLaw.add {quants : ZHash (Fin n → ℕ)} (h : QuantsLaw quants) {page : Bytes}
    (hpage : page ≠ lit "all_pages") (kind : UInt8) (quant : ℕ) (row : Fin n → ℕ) :
    QuantsLaw (quants+single (quantsText kind quant page) row+
      single (quantsText kind quant (lit "all_pages")) row) := by
  intro kind' quant'
  have hadd := sumAlong_add (.id (WithZero (Fin n → ℕ))) (injOn_quantsText kind' quant')
  have hnotAll : ∀ ns ∈ proper,quantsText kind' quant' ns ≠ quantsText kind quant (lit "all_pages") :=
    fun _ hns heq => hns (quantsText_inj heq).2.2
  have hne : quantsText kind quant page ≠ quantsText kind' quant' (lit "all_pages") := fun heq =>
    hpage (quantsText_inj heq).2.2
  rw [hadd,hadd,sumAlong_single_of_notMem _ hnotAll,add_zero,value_add,value_add,value_single,
    if_neg hne,add_zero,value_single,h kind' quant']
  by_cases hsame : kind = kind' ∧ quant = quant'
  · obtain ⟨rfl,rfl⟩ := hsame
    rw [if_pos rfl,sumAlong_single_of_mem (.id _) (injOn_quantsText kind quant) hpage row]
    rfl
  · have hnot : ∀ ns ∈ proper,quantsText kind' quant' ns ≠ quantsText kind quant page := fun _ _ heq =>
      hsame ⟨(quantsText_inj heq).1.symm,(quantsText_inj heq).2.1.symm⟩
    rw [if_neg fun heq => hsame ⟨(quantsText_inj heq).1,(quantsText_inj heq).2.1⟩,
      sumAlong_single_of_notMem _ hnot]

/-! One message. -/

/-- The keys a message is filed under are shorter than the buffers. -/
def Filing.Fits (filing : Filing n) : Prop :=
  ∀ ns ∈ lit "all_pages"::filing.namespaces,(minutesText filing.minute ns).length < 2000 ∧
    ∀ clock ∈ filing.clock,(histogramText clock.resource filing.minute ns).length < 2000

instance (filing : Filing n) : Decidable filing.Fits := by
  unfold Filing.Fits
  infer_instance

lemma processorAddTotals_eq (self : Processor n) (ns : Bytes) (incs : Increments n) :
    processorAddTotals self ns incs = { self with totals := self.totals+single ns incs } :=
  congrArg (fun totals => { self with totals := totals }) (combineAt_eq_add_single self.totals ns incs)

lemma processorAddMinutes_eq (self : Processor n) {ns : Bytes} {minute : ℤ}
    (hfits : (minutesText minute ns).length < 2000) (incs : Increments n) :
    processorAddMinutes self ns minute incs =
      { self with minutes := self.minutes+single (minutesText minute ns) incs } := by
  have hkey : minutesKey ns minute = minutesText minute ns := snprintf_of_short hfits
  rw [processorAddMinutes,hkey]
  exact congrArg (fun minutes => { self with minutes := minutes })
    (combineAt_eq_add_single self.minutes (minutesText minute ns) incs)

lemma processorAddHistogram_eq (self : Processor n) {ns : Bytes} {minute : ℤ} {resource : Bytes}
    (hfits : (histogramText resource minute ns).length < 2000) {timeIndex : Fin n} {incs : Increments n}
    (htime : (incs.metrics timeIndex).val ≠ 0) :
    ∃ i,processorAddHistogram self ns minute resource timeIndex incs =
      { self with histograms := self.histograms+single (histogramText resource minute ns) (Pi.single i 1) } := by
  have hkey : histogramKey ns minute resource = histogramText resource minute ns := snprintf_of_short hfits
  refine ⟨⟨findBucketIndex (incs.metrics timeIndex).val,findBucketIndex_lt _⟩,?_⟩
  simp only [processorAddHistogram,if_neg htime,hkey,update_succ]
  exact congrArg (fun histograms => { self with histograms := histograms }) (insert_getD_add _ _ _)

lemma addQuant_ensures (ns : Bytes) (i : Fin n) (kind : UInt8) (quant : ℕ) (quants : ZHash (Fin n → ℕ)) :
    Ensures (addQuant ns i kind quant quants) fun quants' =>
      quants' = quants+single (quantsText kind quant ns) (Pi.single i 1) := by
  rw [addQuant_eq,sprintf]
  split_ifs
  · exact Ensures.ok rfl
  · exact Ensures.error

/-- Quants are added to both sides of the law, and nothing else is changed. -/
lemma processorAddQuants_law (res : Resources n) (self : Processor n) {page : Bytes}
    (hpage : page ≠ lit "all_pages") (incs : Increments n) (h : QuantsLaw self.quants) :
    Ensures (processorAddQuants res self page incs) fun p =>
      p = { self with quants := p.quants } ∧ QuantsLaw p.quants := by
  refine Ensures.foldlM (fun p hp i _ => ?_) ⟨rfl,h⟩
  refine Ensures.ite (fun _ => ?_) fun _ => Ensures.ok hp
  cases quantKind res i with
  | none => exact Ensures.ok hp
  | some k =>
    refine (addQuant_ensures page i k.1 _ p.quants).bind fun quants hquants => ?_
    refine (addQuant_ensures (lit "all_pages") i k.1 _ quants).bind fun quants' hquants' => Ensures.ok ⟨?_,?_⟩
    · exact congrArg (fun p : Processor n => { p with quants := quants' }) hp.1
    · change QuantsLaw quants'
      rw [hquants',hquants]
      exact hp.2.add hpage k.1 _ (Pi.single i 1)

variable {env : Env n}

/-- An accepted request is filed under its page, its module and all pages. -/
lemma Balanced.addAggregates {self : Processor n} (h : Balanced self) {page module : Bytes} {minute : ℤ}
    {clock : Clock} {incs : Increments n} (hsound : Filing.Sound env ⟨[page,module],minute,some clock,incs⟩)
    (hfits : Filing.Fits ⟨[page,module],minute,some clock,incs⟩) :
    Ensures (addAggregates env self page module minute clock.resource (clock.index env.res) incs) Balanced := by
  obtain ⟨htotals,hhistograms,hrequests,hquants⟩ := (balanced_iff self).mp h
  have hpage : page ≠ lit "all_pages" := hsound.namespaces_ne page (by simp)
  have hmodule : module ≠ lit "all_pages" := hsound.namespaces_ne module (by simp)
  have hfit : ∀ ns ∈ [lit "all_pages",page,module],(minutesText minute ns).length < 2000 ∧
      (histogramText clock.resource minute ns).length < 2000 := fun ns hns =>
    ⟨(hfits ns hns).1,(hfits ns hns).2 clock rfl⟩
  have htime : (incs.metrics (clock.index env.res)).val ≠ 0 := hsound.time_ne_zero clock rfl
  unfold Importer.addAggregates
  simp only [processorAddTotals_eq,processorAddMinutes_eq _ (hfit page (by simp)).1,
    processorAddMinutes_eq _ (hfit module (by simp)).1,
    processorAddMinutes_eq _ (hfit (lit "all_pages") (by simp)).1]
  -- quants come between minutes and histograms and leave the other aggregates alone
  refine (processorAddQuants_law env.res _ hpage incs ?_).bind fun p hp => Ensures.ok ?_
  · exact hquants
  obtain ⟨i,hi⟩ := processorAddHistogram_eq p (hfit page (by simp)).2 htime
  obtain ⟨j,hj⟩ := processorAddHistogram_eq (processorAddHistogram p page minute clock.resource _ incs)
    (hfit module (by simp)).2 htime
  obtain ⟨k,hk⟩ := processorAddHistogram_eq (processorAddHistogram
    (processorAddHistogram p page minute clock.resource _ incs) module minute clock.resource _ incs)
    (hfit (lit "all_pages") (by simp)).2 htime
  rw [hk,hj,hi,hp.1,balanced_iff]
  refine ⟨?_,?_,hrequests.add hpage hmodule incs,hp.2⟩
  · exact ((htotals.add hsound.minute_mem page incs).add hsound.minute_mem module incs).add hsound.minute_mem
      (lit "all_pages") incs
  · exact ((hhistograms.add hsound.minute_mem hsound.requestCount_eq page i).add hsound.minute_mem
      hsound.requestCount_eq module j).add hsound.minute_mem hsound.requestCount_eq (lit "all_pages") k

/-- What is no request can be filed under any namespace. -/
lemma Balanced.addCounters {self : Processor n} (h : Balanced self) {minute : ℤ} (hminute : minute ∈ ints)
    {ns : Bytes} (hfits : (minutesText minute ns).length < 2000) {incs : Increments n}
    (hincs : ∀ clock : Clock,clock.requestCount incs = 0) :
    Balanced (processorAddMinutes (processorAddTotals self ns incs) ns minute incs) := by
  obtain ⟨htotals,hhistograms,hrequests,hquants⟩ := (balanced_iff self).mp h
  rw [processorAddMinutes_eq _ hfits,processorAddTotals_eq,balanced_iff]
  exact ⟨htotals.add hminute ns incs,hhistograms.addCounters hincs _,hrequests.addCounters hincs ns,hquants⟩

/-! The handlers. Each of them finds out what the message amounts to, and files it. -/

/-- A processor without the modules, the agents and the number of messages. -/
def Processor.aggregates (p : Processor n) :
    ZHash (Increments n) × ZHash (Increments n) × ZHash (Fin n → ℕ) × ZHash (Fin histogramSize → ℕ) :=
  (p.totals,p.minutes,p.quants,p.histograms)

/-- Counters are added under several namespaces, one after the other. -/
def addCounters (self : Processor n) (namespaces : List Bytes) (minute : ℤ) (incs : Increments n) : Processor n :=
  namespaces.foldl (fun p ns => processorAddMinutes (processorAddTotals p ns incs) ns minute incs) self

/-- What becomes of the aggregates, given what a message amounts to. -/
inductive Files (env : Env n) (self next : Processor n) : Option (Filing n) → Prop
  | dropped (hsame : next.aggregates = self.aggregates) : Files env self next none
  | request {page module : Bytes} {minute : ℤ} {clock : Clock} {incs : Increments n} {p : Processor n}
      (hadd : addAggregates env (addModule self module) page module minute clock.resource
        (clock.index env.res) incs = .ok p)
      (hsame : next.aggregates = p.aggregates) : Files env self next (some ⟨[page,module],minute,some clock,incs⟩)
  | counters (module : Bytes) {namespaces : List Bytes} {minute : ℤ} {incs : Increments n}
      (hnext : next = addCounters (addModule self module) (lit "all_pages"::namespaces) minute incs) :
      Files env self next (some ⟨namespaces,minute,none,incs⟩)

lemma updateAgent_aggregates (self : Processor n) (agent : Option Bytes) (f : UserAgentStats → UserAgentStats) :
    (updateAgent self agent f).aggregates = self.aggregates := by cases agent <;> rfl

/-- The handler has filed what the message amounts to. -/
def FilesAs (env : Env n) (self : Processor n) (filing : Except Fault (Option (Filing n))) (next : Processor n) : Prop :=
  ∃ f,filing = .ok f ∧ Files env self next f

section

variable {self : Processor n} {info : StreamInfo} {request : JObject} {tracked : Bool}

lemma processorAddRequest_files : Ensures (processorAddRequest env info self request)
    (FilesAs env self (requestFiling env info request)) := by
  unfold processorAddRequest
  refine Ensures.ite (fun hignored => Ensures.ok ⟨none,if_pos hignored,.dropped rfl⟩) fun hignored => ?_
  simp only [processorSetupModule,bind_assoc,pure_bind]
  refine Ensures.bind (fun _ hr => hr) fun named hpage => Ensures.bind (fun _ hr => hr) fun module hmodule => ?_
  refine Ensures.bind (fun _ hr => hr) fun dated hminute => ?_
  refine Ensures.bind (fun _ hr => hr) fun hard hhard => Ensures.bind (fun _ hr => hr) fun soft hsoft => ?_
  refine Ensures.bind (fun _ hr => hr) fun timed hother => ?_
  refine Ensures.bind (fun _ hr => hr) fun incs hincs => Ensures.bind (fun _ hr => hr) fun p hadd => Ensures.ok ?_
  -- the filing goes through the same steps as the handler
  have hfiling : requestFiling env info request = .ok (some ⟨[named.1,module],dated.1,some .total,incs⟩) := by
    simp only [requestFiling,if_neg hignored,hpage,hmodule,hminute,hhard,hsoft,hother,hincs,bind,Except.bind]
    rfl
  exact ⟨_,hfiling,.request hadd (updateAgent_aggregates _ _ _)⟩

/-- Dropping a message changes the statistics of the agent only. -/
lemma filesAs_drop {p : Processor n} {filing : Except Fault (Option (Filing n))} (hfiling : filing = .ok none)
    (hsame : p.aggregates = self.aggregates) (agent : Option Bytes) (reason : FeMsgDropReason) :
    FilesAs env self filing (processorAddUserAgent p agent reason) :=
  ⟨none,hfiling,.dropped ((updateAgent_aggregates p agent _).trans hsame)⟩

/-- What the handlers of pages and ajax requests do once the timings are in the message. -/
lemma frontend_files (clock : Clock) (incs : JObject → ℚ → Increments n) (agent : Option Bytes) :
    Ensures (do
      let (page,request) ← processorSetupPage env.json request
      let (module,self) ← processorSetupModule self page
      let (minute,request) ← processorSetupMinute env.json request
      let (totalTime,request) :=
        processorSetupTime env.json request clock.resource (some (lit "frontend_time"))
      if totalTime > feMsgOutlierThresholdMs then
        return (FeMsgDropReason.outlier,processorAddUserAgent self agent .outlier)
      else
        let self ← addAggregates env self page module minute clock.resource (clock.index env.res)
          (incs request totalTime)
        return (FeMsgDropReason.accepted,processorAddUserAgent self agent .accepted))
      fun r => FilesAs env self (frontendFiling env clock incs request) r.2 := by
  simp only [processorSetupModule,bind_assoc,pure_bind]
  refine Ensures.bind (fun _ hr => hr) fun named hpage => Ensures.bind (fun _ hr => hr) fun module hmodule => ?_
  refine Ensures.bind (fun _ hr => hr) fun dated hminute => ?_
  refine Ensures.ite (fun htime => Ensures.ok ?_) fun htime => ?_
  · have hsame : (addModule self module).aggregates = self.aggregates := rfl
    refine filesAs_drop ?_ hsame agent .outlier
    simp only [frontendFiling,hpage,hmodule,hminute,bind,Except.bind]
    exact if_pos htime
  refine Ensures.bind (fun _ hr => hr) fun p hadd => Ensures.ok ⟨_,?_,.request hadd (updateAgent_aggregates _ _ _)⟩
  simp only [frontendFiling,hpage,hmodule,hminute,bind,Except.bind]
  exact if_neg htime

lemma processorAddFrontendData_files : Ensures (processorAddFrontendData env self request tracked) fun r =>
    FilesAs env self (pageFiling env request tracked) r.2 := by
  unfold processorAddFrontendData pageFiling
  cases extractFrontendTimings env.json request 16 with
  | error fault => exact Ensures.error
  | ok timings =>
    cases timings with
    | none => exact Ensures.ok (filesAs_drop rfl rfl _ _)
    | some timings =>
      simp only [bind,Except.bind]
      split_ifs
      · exact Ensures.ok (filesAs_drop rfl rfl _ _)
      · exact Ensures.ok (filesAs_drop rfl rfl _ _)
      · let converted := convertFrontendTimingsToJson request timings
        exact frontend_files .page (fun request totalTime => pageIncrements env request totalTime converted.2.1) _

lemma processorAddAjaxData_files : Ensures (processorAddAjaxData env self request tracked) fun r =>
    FilesAs env self (ajaxFiling env request tracked) r.2 := by
  unfold processorAddAjaxData ajaxFiling
  cases extractFrontendTimings env.json request 2 with
  | error fault => exact Ensures.error
  | ok timings =>
    cases timings with
    | none => exact Ensures.ok (filesAs_drop rfl rfl _ _)
    | some timings =>
      simp only [bind,Except.bind]
      split_ifs
      · exact Ensures.ok (filesAs_drop rfl rfl _ _)
      · exact Ensures.ok (filesAs_drop rfl rfl _ _)
      · exact frontend_files .ajax (ajaxIncrements env) _

lemma processorAddJsException_files : Ensures (processorAddJsException env self request)
    (FilesAs env self (jsExceptionFiling env request)) := by
  unfold processorAddJsException
  simp only [processorSetupModule,bind_assoc,pure_bind]
  refine Ensures.bind (fun _ hr => hr) fun page hpage => Ensures.bind (fun _ hr => hr) fun jsException hkey => ?_
  refine Ensures.ite (fun hempty => Ensures.ok ⟨none,?_,.dropped rfl⟩) fun hne => ?_
  · simp only [jsExceptionFiling,hpage,hkey,if_pos hempty,bind,Except.bind]
    rfl
  refine Ensures.bind (fun _ hr => hr) fun dated hminute => Ensures.bind (fun _ hr => hr) fun module hmodule => ?_
  refine Ensures.ok ⟨some ⟨(if strstr page (lit "#unknown_method") = none then [page] else []) ++
    if module ≠ lit "Unknown" then [module] else [],dated.1,none,jsExceptionIncrements jsException⟩,?_,?_⟩
  · simp only [jsExceptionFiling,hpage,hkey,if_neg hne,hminute,hmodule,bind,Except.bind]
    rfl
  · refine .counters module ?_
    split_ifs <;> rfl

end

/-! Runs. -/

/-- The messages of a database. -/
inductive Message
  | request (body : JObject)
  | page (body : JObject) (tracked : Bool)
  | ajax (body : JObject) (tracked : Bool)
  | jsException (body : JObject)

namespace Message

def handle (env : Env n) (info : StreamInfo) (self : Processor n) : Message → Except Fault (Processor n)
  | .request body => processorAddRequest env info self body
  | .page body tracked => (processorAddFrontendData env self body tracked).map (·.2)
  | .ajax body tracked => (processorAddAjaxData env self body tracked).map (·.2)
  | .jsException body => processorAddJsException env self body

def filing (env : Env n) (info : StreamInfo) : Message → Except Fault (Option (Filing n))
  | .request body => requestFiling env info body
  | .page body tracked => pageFiling env body tracked
  | .ajax body tracked => ajaxFiling env body tracked
  | .jsException body => jsExceptionFiling env body

/-- All keys of the message are shorter than the buffers. -/
def KeysFit (env : Env n) (info : StreamInfo) (message : Message) : Prop :=
  ∀ f,message.filing env info = .ok (some f) → f.Fits

instance (env : Env n) (info : StreamInfo) (message : Message) : Decidable (message.KeysFit env info) :=
  match h : message.filing env info with
  | .ok (some f) => decidable_of_iff f.Fits
      ⟨fun hf g hg => by rw [h] at hg; exact Option.some.inj (Except.ok.inj hg) ▸ hf,fun hf => hf f h⟩
  | .ok none => isTrue fun f hf => by rw [h] at hf; cases hf
  | .error _ => isTrue fun f hf => by rw [h] at hf; cases hf

/-- The message does not take the error branch of processor_add_histogram. -/
def Timed (env : Env n) (info : StreamInfo) (message : Message) : Prop :=
  ∀ f,message.filing env info = .ok (some f) →
    ∀ clock ∈ f.clock,(f.incs.metrics (clock.index env.res)).val ≠ 0

end Message

/-- The messages a processor gets, one after the other. -/
def processAll (env : Env n) (info : StreamInfo) (messages : List Message) : Except Fault (Processor n) :=
  messages.foldlM (fun self message => message.handle env info self) processorNew

lemma balanced_new : Balanced (processorNew : Processor n) := by
  rw [balanced_iff]
  refine ⟨fun ns => ?_,fun clock ns minute _ => ?_,fun clock => ?_,fun kind quant => ?_⟩ <;>
    simp only [processorNew,value_empty,sumAlong_empty,map_zero,mul_zero]

lemma Ensures.snd {α : Type} {P : α → Prop} {x : Except Fault (FeMsgDropReason × α)}
    (h : Ensures x fun r => P r.2) : Ensures (x.map (·.2)) P := by
  cases x with
  | error e => exact Ensures.error
  | ok r => exact Ensures.ok (h r rfl)

/-- Every message is filed as what it amounts to. -/
theorem Message.handle_files (env : Env n) (info : StreamInfo) (self : Processor n) (message : Message) :
    Ensures (message.handle env info self) (FilesAs env self (message.filing env info)) := by
  cases message with
  | request body => exact processorAddRequest_files
  | page body tracked => exact Ensures.snd processorAddFrontendData_files
  | ajax body tracked => exact Ensures.snd processorAddAjaxData_files
  | jsException body => exact processorAddJsException_files

theorem Message.filing_sound (hconf : env.res.Configured) (info : StreamInfo) (message : Message) :
    Ensures (message.filing env info) fun filing => ∀ f ∈ filing,f.Sound env := by
  cases message with
  | request body => exact requestFiling_sound hconf info body
  | page body tracked => exact pageFiling_sound hconf body tracked
  | ajax body tracked => exact ajaxFiling_sound hconf body tracked
  | jsException body => exact jsExceptionFiling_sound env body

lemma Balanced.congr {p q : Processor n} (h : Balanced q) (hsame : p.aggregates = q.aggregates) : Balanced p := by
  simp only [Processor.aggregates,Prod.mk.injEq] at hsame
  obtain ⟨htotals,hminutes,hquants,hhistograms⟩ := hsame
  constructor
  · rw [htotals,hminutes]
    exact h.totals
  · rw [hhistograms,hminutes]
    exact h.histograms
  · rw [htotals]
    exact h.requests
  · rw [hquants]
    exact h.quants

lemma Balanced.addModule {self : Processor n} (h : Balanced self) (module : Bytes) :
    Balanced (addModule self module) := h.congr rfl

/-- Every message keeps the laws. -/
theorem Balanced.handle (hconf : env.res.Configured) {info : StreamInfo} {self : Processor n}
    (h : Balanced self) {message : Message} (hfits : message.KeysFit env info) :
    Ensures (message.handle env info self) Balanced := by
  intro next hnext
  obtain ⟨filing,hfiling,hfiles⟩ := message.handle_files env info self next hnext
  cases hfiles with
  | dropped hsame => exact h.congr hsame
  | request hadd hsame =>
    have hsound := message.filing_sound hconf info _ hfiling _ rfl
    exact ((h.addModule _).addAggregates hsound (hfits _ hfiling) _ hadd).congr hsame
  | counters module hcounted =>
    have hsound := message.filing_sound hconf info _ hfiling _ rfl
    rw [hcounted]
    refine List.foldlRecOn _ _ (h.addModule module) fun p hp ns hns => ?_
    exact hp.addCounters hsound.minute_mem (hfits _ hfiling ns hns).1 hsound.requestCount_eq

/-- Whatever messages a processor has got, its aggregates agree with each other, and no message was
without a time for the histograms. -/
theorem processAll_balanced (env : Env n) (hconf : env.res.Configured) (info : StreamInfo)
    (messages : List Message) (hfits : ∀ message ∈ messages,message.KeysFit env info) {p : Processor n}
    (hrun : processAll env info messages = .ok p) :
    Balanced p ∧ ∀ message ∈ messages,message.Timed env info := by
  constructor
  · have hstep (self : Processor n) (h : Balanced self) (message : Message) (hmem : message ∈ messages) :=
      h.handle hconf (hfits message hmem)
    exact Ensures.foldlM hstep balanced_new p hrun
  · intro message _ f hf clock hclock
    exact (message.filing_sound hconf info _ hf f rfl).time_ne_zero clock hclock

/-- One message of each kind. -/
def sampleMessages : List Message :=
  let startedAt := (lit "started_at",Json.str (lit "2026-01-31T10:20:30"))
  let id := (lit "logjam_request_id",Json.str (lit "shop-production-1"))
  [.request [(lit "action",.str (lit "Cart#show")),startedAt,(lit "db_time",.int 7)],
    .page [(lit "action",.str (lit "Cart#show")),startedAt,id,
      (lit "rts",.str (lit "1,1,1,1,1,1,2,3,4,4,5,6,7,8,9,10"))] true,
    .ajax [(lit "action",.str (lit "Cart#add")),startedAt,id,(lit "rts",.str (lit "100,140"))] true,
    .jsException [(lit "logjam_action",.str (lit "Cart#show")),startedAt,(lit "description",.str (lit "oops"))]]

def sampleInfo : StreamInfo := ⟨lit "production",none,false,[]⟩

theorem processAll_balanced_sample :
    (∀ message ∈ sampleMessages,(message.filing sampleEnv sampleInfo).toOption.join.isSome) ∧
      ∃ p,processAll sampleEnv sampleInfo sampleMessages = .ok p ∧ Balanced p ∧
        ∀ message ∈ sampleMessages,message.Timed sampleEnv sampleInfo := by
  have hok : (processAll sampleEnv sampleInfo sampleMessages).toOption.isSome := by decide +kernel
  have hconf : sampleEnv.res.Configured := fun clock => by cases clock <;> decide
  refine ⟨by decide +kernel,?_⟩
  cases hrun : processAll sampleEnv sampleInfo sampleMessages with
  | error e =>
    rw [hrun] at hok
    cases hok
  | ok p =>
    exact ⟨p,rfl,processAll_balanced sampleEnv hconf sampleInfo sampleMessages (by decide +kernel) hrun⟩

end Logjam.Importer
