import Logjam.Importer.Processor

/-! Every message handler adds to the aggregates an increment of its own. The aggregates of a
database form a commutative monoid under merging, each primitive update is the addition of a
processor with one entry, and the handlers are translations of this monoid. -/
namespace Logjam.Importer
open Logjam.Library.MergeMap Logjam.Library.Translation

instance : Add UserAgentStats := ⟨fun a b => ⟨a.receivedBackend+b.receivedBackend,
  a.receivedFrontend+b.receivedFrontend,a.feDropped+b.feDropped,a.feDropReasons+b.feDropReasons⟩⟩
instance : Zero UserAgentStats := ⟨⟨0,0,0,fun _ => 0⟩⟩

instance : AddCommMonoid UserAgentStats where
  add_assoc _ _ _ := UserAgentStats.ext (add_assoc _ _ _) (add_assoc _ _ _) (add_assoc _ _ _)
    (add_assoc _ _ _)
  zero_add _ := UserAgentStats.ext (zero_add _) (zero_add _) (zero_add _) (zero_add _)
  add_zero _ := UserAgentStats.ext (add_zero _) (add_zero _) (add_zero _) (add_zero _)
  add_comm _ _ := UserAgentStats.ext (add_comm _ _) (add_comm _ _) (add_comm _ _) (add_comm _ _)
  nsmul := nsmulRec

variable {n : ℕ}

instance : Zero (Processor n) := ⟨processorNew⟩
instance : Add (Processor n) := ⟨fun a b => ⟨a.requestCount+b.requestCount,a.modules+b.modules,
  a.totals+b.totals,a.minutes+b.minutes,a.quants+b.quants,a.histograms+b.histograms,a.agents+b.agents⟩⟩

/-- Processors merge componentwise; a new processor is neutral. -/
instance : AddCommMonoid (Processor n) where
  add_assoc _ _ _ := Processor.ext (add_assoc _ _ _) (add_assoc _ _ _) (add_assoc _ _ _)
    (add_assoc _ _ _) (add_assoc _ _ _) (add_assoc _ _ _) (add_assoc _ _ _)
  zero_add _ := Processor.ext (zero_add _) (zero_add _) (zero_add _) (zero_add _) (zero_add _)
    (zero_add _) (zero_add _)
  add_zero _ := Processor.ext (add_zero _) (add_zero _) (add_zero _) (add_zero _) (add_zero _)
    (add_zero _) (add_zero _)
  add_comm _ _ := Processor.ext (add_comm _ _) (add_comm _ _) (add_comm _ _) (add_comm _ _)
    (add_comm _ _) (add_comm _ _) (add_comm _ _)
  nsmul := nsmulRec

/-- A reason is returned as it is, whatever the state. -/
instance : AddAction (Processor n) FeMsgDropReason where
  vadd _ r := r
  zero_vadd _ := rfl
  add_vadd _ _ _ := rfl

/-! Changing one component by an addition is adding a processor that has this component only. -/

lemma isShift_requestCount (d : ℕ) :
    IsShift (fun p : Processor n => { p with requestCount := p.requestCount+d }) :=
  fun p => Processor.ext (congrArg (p.requestCount + ·) (zero_add d).symm) (add_zero _).symm
    (add_zero _).symm (add_zero _).symm (add_zero _).symm (add_zero _).symm (add_zero _).symm

lemma isShift_modules (d : ZHash Unit) :
    IsShift (fun p : Processor n => { p with modules := p.modules+d }) :=
  fun p => Processor.ext (add_zero _).symm (congrArg (p.modules + ·) (zero_add d).symm)
    (add_zero _).symm (add_zero _).symm (add_zero _).symm (add_zero _).symm (add_zero _).symm

lemma isShift_totals (d : ZHash (Increments n)) :
    IsShift (fun p : Processor n => { p with totals := p.totals+d }) :=
  fun p => Processor.ext (add_zero _).symm (add_zero _).symm
    (congrArg (p.totals + ·) (zero_add d).symm) (add_zero _).symm (add_zero _).symm (add_zero _).symm
    (add_zero _).symm

lemma isShift_minutes (d : ZHash (Increments n)) :
    IsShift (fun p : Processor n => { p with minutes := p.minutes+d }) :=
  fun p => Processor.ext (add_zero _).symm (add_zero _).symm (add_zero _).symm
    (congrArg (p.minutes + ·) (zero_add d).symm) (add_zero _).symm (add_zero _).symm (add_zero _).symm

lemma isShift_quants (d : ZHash (Fin n → ℕ)) :
    IsShift (fun p : Processor n => { p with quants := p.quants+d }) :=
  fun p => Processor.ext (add_zero _).symm (add_zero _).symm (add_zero _).symm (add_zero _).symm
    (congrArg (p.quants + ·) (zero_add d).symm) (add_zero _).symm (add_zero _).symm

lemma isShift_histograms (d : ZHash (Fin histogramSize → ℕ)) :
    IsShift (fun p : Processor n => { p with histograms := p.histograms+d }) :=
  fun p => Processor.ext (add_zero _).symm (add_zero _).symm (add_zero _).symm (add_zero _).symm
    (add_zero _).symm (congrArg (p.histograms + ·) (zero_add d).symm) (add_zero _).symm

lemma isShift_agents (d : ZHash UserAgentStats) :
    IsShift (fun p : Processor n => { p with agents := p.agents+d }) :=
  fun p => Processor.ext (add_zero _).symm (add_zero _).symm (add_zero _).symm (add_zero _).symm
    (add_zero _).symm (add_zero _).symm (congrArg (p.agents + ·) (zero_add d).symm)

/-- Reading an absent row as zero and storing it changed by an addition merges one entry. -/
lemma insert_getD_add {V : Type} [AddCommMonoid V] (m : ZHash V) (k : Bytes) (d : V) :
    m.insert k ((m[k]?).getD 0+d) = m+single k d := by
  rw [← combineAt_eq_add_single,combineAt]
  cases m[k]? with
  | none => simp
  | some w => simp

lemma update_succ {ι : Type} [DecidableEq ι] (row : ι → ℕ) (i : ι) :
    Function.update row i (row i+1) = row+Pi.single i 1 := by
  funext j
  by_cases h : j = i
  · subst j
    simp
  · simp [h]

theorem addModule_isShift (module : Bytes) : IsShift (fun p : Processor n => addModule p module) := by
  have h := isShift_modules (n := n) (single module ())
  simp only [← combineAt_eq_add_single] at h
  exact h

theorem processorAddTotals_isShift (ns : Bytes) (incs : Increments n) :
    IsShift (fun p : Processor n => processorAddTotals p ns incs) := by
  have h := isShift_totals (single ns incs)
  simp only [← combineAt_eq_add_single] at h
  exact h

theorem processorAddMinutes_isShift (ns : Bytes) (minute : ℤ) (incs : Increments n) :
    IsShift (fun p : Processor n => processorAddMinutes p ns minute incs) := by
  have h := isShift_minutes (single (minutesKey ns minute) incs)
  simp only [← combineAt_eq_add_single] at h
  exact h

theorem processorAddHistogram_isShift (ns : Bytes) (minute : ℤ) (resource : Bytes) (timeIndex : Fin n)
    (incs : Increments n) :
    IsShift (fun p : Processor n => processorAddHistogram p ns minute resource timeIndex incs) := by
  unfold processorAddHistogram
  apply isShift_id.ite
  simp only [update_succ]
  have h := isShift_histograms (n := n) (single (histogramKey ns minute resource)
    (Pi.single ⟨findBucketIndex (incs.metrics timeIndex).val,findBucketIndex_lt _⟩ 1))
  simp only [← insert_getD_add] at h
  exact h

/-- An update of the statistics that adds to them is a shift of the processor. -/
lemma updateAgent_isShift (agent : Option Bytes) {f : UserAgentStats → UserAgentStats}
    (d : UserAgentStats) (hf : ∀ s, f s = s+d) :
    IsShift (fun p : Processor n => updateAgent p agent f) := by
  cases agent with
  | none => exact isShift_id
  | some a =>
    have h := isShift_agents (n := n) (single a d)
    simp only [← insert_getD_add,← hf] at h
    exact h

theorem processorAddAgent_isShift (lib : JsonLib) (request : JObject) :
    IsShift (fun p : Processor n => processorAddAgent lib p request) :=
  updateAgent_isShift _ ⟨1,0,0,0⟩ fun _ => rfl

theorem processorAddUserAgent_isShift (agent : Option Bytes) (reason : FeMsgDropReason) :
    IsShift (fun p : Processor n => processorAddUserAgent p agent reason) := by
  apply updateAgent_isShift _ ⟨0,1,if reason = .accepted then 0 else 1,Pi.single reason 1⟩
  intro s
  rw [update_succ]
  apply UserAgentStats.ext
  · rfl
  · rfl
  · change (if reason = .accepted then s.feDropped else s.feDropped+1) =
      s.feDropped+if reason = .accepted then 0 else 1
    split <;> rfl
  · rfl

/-- A quant is added at a key that depends on the request only. -/
lemma addQuant_eq (ns : Bytes) (i : Fin n) (kind : UInt8) (quant : ℕ) (quants : ZHash (Fin n → ℕ)) :
    addQuant ns i kind quant quants =
      (sprintf 2000 (kind::lit "-" ++ decimal quant ++ lit "-" ++ ns)).map fun key =>
        quants+single key (Pi.single i 1) := by
  unfold addQuant
  cases sprintf 2000 (kind::lit "-" ++ decimal quant ++ lit "-" ++ ns) with
  | error e => rfl
  | ok key =>
    change Except.ok _ = Except.ok _
    rw [update_succ]
    exact congrArg Except.ok (insert_getD_add quants key (Pi.single i 1))

theorem processorAddQuants_isTranslation (res : Resources n) (ns : Bytes) (incs : Increments n) :
    IsTranslation (fun p : Processor n => processorAddQuants res p ns incs) := by
  apply IsTranslation.foldlM
  intro i
  apply IsTranslation.ite _ isShift_id.ok
  cases quantKind res i with
  | none => exact isShift_id.ok
  | some k =>
    simp only [addQuant_eq]
    cases sprintf 2000 (k.1::lit "-" ++ decimal (findBucket ((incs.metrics i).val/k.2)*k.2) ++
        lit "-" ++ ns) with
    | error e => exact isTranslation_error e
    | ok key =>
      cases sprintf 2000 (k.1::lit "-" ++ decimal (findBucket ((incs.metrics i).val/k.2)*k.2) ++
          lit "-" ++ lit "all_pages") with
      | error e => exact isTranslation_error e
      | ok key' =>
        have h := isShift_quants (single key (Pi.single i 1)+single key' (Pi.single i 1))
        simp only [← add_assoc] at h
        exact h.ok

theorem addAggregates_isTranslation (env : Env n) (page module : Bytes) (minute : ℤ) (resource : Bytes)
    (timeIndex : Fin n) (incs : Increments n) :
    IsTranslation (fun p : Processor n => addAggregates env p page module minute resource timeIndex incs) := by
  have htotals : IsShift (fun p : Processor n => processorAddTotals (processorAddTotals
      (processorAddTotals p page incs) module incs) (lit "all_pages") incs) :=
    ((processorAddTotals_isShift page incs).comp (processorAddTotals_isShift module incs)).comp
      (processorAddTotals_isShift (lit "all_pages") incs)
  have hminutes : IsShift (fun p : Processor n => processorAddMinutes (processorAddMinutes
      (processorAddMinutes p page minute incs) module minute incs) (lit "all_pages") minute incs) :=
    ((processorAddMinutes_isShift page minute incs).comp
      (processorAddMinutes_isShift module minute incs)).comp
      (processorAddMinutes_isShift (lit "all_pages") minute incs)
  have hhistograms : IsShift (fun p : Processor n => processorAddHistogram (processorAddHistogram
      (processorAddHistogram p page minute resource timeIndex incs) module minute resource timeIndex incs)
      (lit "all_pages") minute resource timeIndex incs) :=
    ((processorAddHistogram_isShift page minute resource timeIndex incs).comp
      (processorAddHistogram_isShift module minute resource timeIndex incs)).comp
      (processorAddHistogram_isShift (lit "all_pages") minute resource timeIndex incs)
  exact (htotals.comp hminutes).trans
    ((processorAddQuants_isTranslation env.res page incs).bind hhistograms.ok)

theorem processorAddRequest_isTranslation (env : Env n) (info : StreamInfo) (request : JObject) :
    IsTranslation (fun p : Processor n => processorAddRequest env info p request) := by
  unfold processorAddRequest
  apply IsTranslation.ite isShift_id.ok
  simp only [processorSetupModule,bind_assoc,pure_bind]
  apply isTranslation_bind
  rintro ⟨page,request⟩
  apply isTranslation_bind
  intro module
  apply isTranslation_bind
  rintro ⟨minute,request⟩
  apply isTranslation_bind
  rintro ⟨exceptions,request⟩
  apply isTranslation_bind
  rintro ⟨softExceptions,request⟩
  apply isTranslation_bind
  intro request
  apply isTranslation_bind
  intro incs
  exact (addModule_isShift module).trans
    ((addAggregates_isTranslation env page module minute _ _ incs).bind
      (processorAddAgent_isShift env.json _).ok)

theorem processorAddJsException_isTranslation (env : Env n) (request : JObject) :
    IsTranslation (fun p : Processor n => processorAddJsException env p request) := by
  have hadd (ns : Bytes) (minute : ℤ) (incs : Increments n) : IsShift (fun p : Processor n =>
      processorAddMinutes (processorAddTotals p ns incs) ns minute incs) :=
    (processorAddTotals_isShift ns incs).comp (processorAddMinutes_isShift ns minute incs)
  unfold processorAddJsException
  simp only [processorSetupModule,bind_assoc,pure_bind]
  apply isTranslation_bind
  intro page
  apply isTranslation_bind
  intro jsException
  apply IsTranslation.ite isShift_id.ok
  apply isTranslation_bind
  rintro ⟨minute,request⟩
  apply isTranslation_bind
  intro module
  apply IsShift.ok
  exact (((addModule_isShift module).comp (hadd (lit "all_pages") minute _)).comp
    ((hadd page minute _).ite isShift_id)).comp ((hadd module minute _).ite isShift_id)

theorem processorAddEvent_isTranslation (env : Env n) (request : JObject) :
    IsTranslation (fun p : Processor n => processorAddEvent env p request) :=
  isTranslation_bind _ fun _ => isShift_id.ok

/-- Every frontend message ends with an update of the user agent statistics. -/
lemma drop_isShift (agent : Option Bytes) (reason : FeMsgDropReason) :
    IsShift (fun p : Processor n => (reason,processorAddUserAgent p agent reason)) :=
  fun p => Prod.ext rfl (processorAddUserAgent_isShift agent reason p)

/-- Outlier or not, the module has been entered. -/
lemma fileFrontend_isTranslation (env : Env n) (agent : Option Bytes) (totalTime : ℚ) (page module : Bytes)
    (minute : ℤ) (resource : Bytes) (timeIndex : Fin n) (incs : Increments n) :
    IsTranslation (fun p : Processor n =>
      if totalTime > feMsgOutlierThresholdMs then
        Except.ok (FeMsgDropReason.outlier,processorAddUserAgent (addModule p module) agent .outlier)
      else addAggregates env (addModule p module) page module minute resource timeIndex incs >>= fun next =>
        Except.ok (FeMsgDropReason.accepted,processorAddUserAgent next agent .accepted)) := by
  apply IsTranslation.ite ((addModule_isShift module).comp (drop_isShift _ _)).ok
  exact (addModule_isShift module).trans
    ((addAggregates_isTranslation env page module minute resource timeIndex incs).bind (drop_isShift _ _).ok)

theorem processorAddFrontendData_isTranslation (env : Env n) (request : JObject) (tracked : Bool) :
    IsTranslation (fun p : Processor n => processorAddFrontendData env p request tracked) := by
  unfold processorAddFrontendData
  simp only [processorSetupModule,bind_assoc,pure_bind]
  apply isTranslation_bind
  intro timings
  cases timings with
  | none => exact (drop_isShift _ _).ok
  | some timings =>
    apply IsTranslation.ite (drop_isShift _ _).ok
    apply IsTranslation.ite (drop_isShift _ _).ok
    apply isTranslation_bind
    rintro ⟨page,request⟩
    apply isTranslation_bind
    intro module
    apply isTranslation_bind
    rintro ⟨minute,request⟩
    exact fileFrontend_isTranslation env _ _ page module minute _ _ _

theorem processorAddAjaxData_isTranslation (env : Env n) (request : JObject) (tracked : Bool) :
    IsTranslation (fun p : Processor n => processorAddAjaxData env p request tracked) := by
  unfold processorAddAjaxData
  simp only [processorSetupModule,bind_assoc,pure_bind]
  apply isTranslation_bind
  intro timings
  cases timings with
  | none => exact (drop_isShift _ _).ok
  | some timings =>
    apply IsTranslation.ite (drop_isShift _ _).ok
    apply IsTranslation.ite (drop_isShift _ _).ok
    apply isTranslation_bind
    rintro ⟨page,request⟩
    apply isTranslation_bind
    intro module
    apply isTranslation_bind
    rintro ⟨minute,request⟩
    exact fileFrontend_isTranslation env _ _ page module minute _ _ _

end Logjam.Importer
