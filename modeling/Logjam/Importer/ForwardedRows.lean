import Logjam.Importer.Conservation
import Logjam.Importer.FrontendStats
import Logjam.Importer.MergedUpdates

/-! The rows that reach the updaters. Whatever messages the parsers get, every key they compose can be
decoded, and every row counts something. -/
namespace Logjam.Importer
open Logjam.Library Logjam.Library.MergeMap

variable {n : ℕ}

/-! Keys. -/

lemma scanDigits_snd (range value : ℕ) (s : Bytes) : (scanDigits range value s).2 = s.dropWhile isDigit := by
  induction s generalizing value with
  | nil => rfl
  | cons c s ih =>
    rw [scanDigits,List.dropWhile_cons]
    split
    · exact ih _
    · rfl

lemma length_decimal_le {digits count : ℕ} (hdigits : 0 < digits) (h : count < 10^digits) :
    (decimal count).length ≤ digits := by
  rw [decimal,List.length_map,Nat.length_toDigits_le_iff (by decide) hdigits]
  exact h

/-- A short beginning is not cut off. -/
lemma snprintf_append (front rest : Bytes) (h : front.length < 2000) :
    ∃ rest',snprintf 2000 (front ++ rest) = front ++ rest' := by
  refine ⟨rest.take (1999-front.length),?_⟩
  rw [snprintf,List.take_append,List.take_of_length_le (by omega)]

theorem minutesKey_decodes (ns : Bytes) (minute : ℤ) : ∃ s,minutesSelector (minutesKey ns minute) = .ok s := by
  have hsize : sizeOfInt minute < 10^20 := by
    have := Int.emod_lt_of_pos minute (show (0 : ℤ) < 2^64 by decide)
    rw [sizeOfInt]
    omega
  have hdigits := length_decimal_le (by decide) hsize
  have hmem : (45 : UInt8) ∈ minutesKey ns minute :=
    mem_snprintf_of_mem (by rw [List.length_append,show (lit "-").length = 1 from rfl]; omega)
      (List.mem_append_right _ (by decide))
  rw [minutesSelector]
  simp only [scanDigits_snd]
  cases hrest : (minutesKey ns minute).dropWhile isDigit with
  | nil => exact absurd (List.dropWhile_eq_nil_iff.mp hrest 45 hmem) (by decide)
  | cons c rest => exact ⟨_,rfl⟩

theorem histogramKey_decodes (ns : Bytes) {minute : ℤ} (hminute : minute ∈ ints) (clock : Clock) :
    ∃ s,histogramsSelector (histogramKey ns minute clock.resource) = .ok s ∧ s.resource.length+3 < 256 := by
  have hdash : 45 ∉ clock.resource := by cases clock <;> decide
  have hshort : clock.resource.length ≤ 10 := by cases clock <;> decide
  obtain ⟨hlow,hhigh⟩ := hminute
  have hskip (rest : Bytes) : skipByte (lit "-" ++ rest) = .ok rest := rfl
  cases minute with
  | ofNat m =>
    have hm : m < 10^10 := by
      have : (m : ℤ) < 2^31 := hhigh
      omega
    have hdigits := length_decimal_le (by decide) hm
    obtain ⟨rest,hrest⟩ := snprintf_append (decimal m ++ lit "-" ++ clock.resource ++ lit "-") ns
      (by simp only [List.length_append,show (lit "-").length = 1 from rfl]; omega)
    have hkey : histogramKey ns (Int.ofNat m) clock.resource =
        decimal m ++ (lit "-" ++ (clock.resource ++ (lit "-" ++ rest))) := by
      simpa only [histogramKey,decimalInt,List.append_assoc] using hrest
    refine ⟨⟨rest,toInt32 m,clock.resource⟩,?_,by simp only; omega⟩
    rw [hkey,histogramsSelector,scanDigits_decimal (by omega),scanDigits_dash]
    simp only [hskip,bind,Except.bind,scanResource_append hdash]
    rw [if_neg (by omega)]
    rfl
  | negSucc m =>
    have hm : m+1 < 10^10 := by
      have : -2^31 ≤ Int.negSucc m := hlow
      omega
    have hdigits := length_decimal_le (by decide) hm
    have hnodash : 45 ∉ decimal (m+1) := fun hmem => absurd (isDigit_of_mem_decimal hmem) (by decide)
    obtain ⟨rest,hrest⟩ := snprintf_append
      (lit "-" ++ decimal (m+1) ++ lit "-" ++ clock.resource ++ lit "-") ns
      (by simp only [List.length_append,show (lit "-").length = 1 from rfl]; omega)
    -- the sign is taken for the end of the minute, and the digits for the resource
    have hkey : histogramKey ns (Int.negSucc m) clock.resource =
        lit "-" ++ (decimal (m+1) ++ (lit "-" ++ (clock.resource ++ (lit "-" ++ rest)))) := by
      simpa only [histogramKey,decimalInt,List.append_assoc] using hrest
    refine ⟨⟨clock.resource ++ (lit "-" ++ rest),toInt32 0,decimal (m+1)⟩,?_,by simp only; omega⟩
    rw [hkey,histogramsSelector,scanDigits_dash]
    simp only [hskip,bind,Except.bind,scanResource_append hnodash]
    rw [if_neg (by omega)]
    rfl

/-! What processing adds to a processor. -/

/-- Every key can be decoded, and no row of counters is all zero. -/
structure Processor.Filed (p : Processor n) : Prop where
  decodable : p.Decodable
  quants : AllValues (· ≠ 0) p.quants
  histograms : AllValues (· ≠ 0) p.histograms

lemma row_add_ne_zero {ι : Type} (a b : ι → ℕ) (ha : a ≠ 0) : a+b ≠ 0 := by
  obtain ⟨i,hi⟩ := Function.ne_iff.mp ha
  refine Function.ne_iff.mpr ⟨i,?_⟩
  have hpos := Nat.pos_of_ne_zero hi
  simp only [Pi.add_apply,Pi.zero_apply]
  omega

namespace Processor.Filed
variable {p q : Processor n}

lemma add (p q : Processor n) (hp : p.Filed) (hq : q.Filed) : (p+q).Filed where
  decodable := hp.decodable.add hq.decodable
  quants := hp.quants.add (fun a b ha _ => row_add_ne_zero a b ha) hq.quants
  histograms := hp.histograms.add (fun a b ha _ => row_add_ne_zero a b ha) hq.histograms

lemma new (count : ℕ) : ({ (processorNew : Processor n) with requestCount := count }).Filed where
  decodable := ⟨fun _ h => absurd h Std.ExtTreeMap.not_mem_empty,
    fun _ h => absurd h Std.ExtTreeMap.not_mem_empty,fun _ h => absurd h Std.ExtTreeMap.not_mem_empty⟩
  quants := allValues_zero
  histograms := allValues_zero

lemma congr (h : q.Filed) (hsame : p.aggregates = q.aggregates) : p.Filed := by
  simp only [Processor.aggregates,Prod.mk.injEq] at hsame
  obtain ⟨-,hminutes,hquants,hhistograms⟩ := hsame
  exact ⟨⟨hminutes ▸ h.decodable.minutes,hquants ▸ h.decodable.quants,hhistograms ▸ h.decodable.histograms⟩,
    hquants ▸ h.quants,hhistograms ▸ h.histograms⟩

lemma addTotals (h : p.Filed) (ns : Bytes) (incs : Increments n) : (processorAddTotals p ns incs).Filed :=
  ⟨⟨h.decodable.minutes,h.decodable.quants,h.decodable.histograms⟩,h.quants,h.histograms⟩

lemma addMinutes (h : p.Filed) (ns : Bytes) (minute : ℤ) (incs : Increments n) :
    (processorAddMinutes p ns minute incs).Filed := by
  refine ⟨⟨fun key hkey => ?_,h.decodable.quants,h.decodable.histograms⟩,h.quants,h.histograms⟩
  have hadd : (processorAddMinutes p ns minute incs).minutes = p.minutes+single (minutesKey ns minute) incs :=
    combineAt_eq_add_single p.minutes (minutesKey ns minute) incs
  rw [hadd] at hkey
  rcases mem_or_mem_of_mem_add hkey with hkey | hkey
  · exact h.decodable.minutes key hkey
  · rcases Std.ExtTreeMap.mem_insert.mp hkey with heq | hnone
    · exact Std.compare_eq_iff_eq.mp heq ▸ minutesKey_decodes ns minute
    · exact absurd hnone Std.ExtTreeMap.not_mem_empty

lemma addHistogram (h : p.Filed) (ns : Bytes) {minute : ℤ} (hminute : minute ∈ ints) (clock : Clock)
    (timeIndex : Fin n) (incs : Increments n) :
    (processorAddHistogram p ns minute clock.resource timeIndex incs).Filed := by
  simp only [processorAddHistogram]
  split
  · exact h
  · refine ⟨⟨h.decodable.minutes,h.decodable.quants,fun key hkey => ?_⟩,h.quants,?_⟩
    · rcases Std.ExtTreeMap.mem_insert.mp hkey with heq | hstored
      · exact Std.compare_eq_iff_eq.mp heq ▸ histogramKey_decodes ns hminute clock
      · exact h.decodable.histograms key hstored
    · rw [update_succ]
      rw [show ∀ m : ZHash (Fin histogramSize → ℕ),∀ key d,m.insert key (((m[key]?).getD fun _ => 0)+d) =
        m+single key d from insert_getD_add]
      refine h.histograms.add (fun a b ha _ => row_add_ne_zero a b ha) (allValues_single fun hzero => ?_)
      have hone := congrFun hzero ⟨findBucketIndex (incs.metrics timeIndex).val,findBucketIndex_lt _⟩
      rw [Pi.single_eq_same] at hone
      cases hone

lemma addQuants (h : p.Filed) (res : Resources n) (ns : Bytes) (incs : Increments n) :
    Ensures (processorAddQuants res p ns incs) Processor.Filed := by
  intro next hnext
  have hkeys := processorAddQuants_keys res p ns incs next hnext
  have hrows : AllValues (· ≠ 0) next.quants ∧ next = { p with quants := next.quants } := by
    refine Ensures.foldlM (P := fun next : Processor n =>
      AllValues (· ≠ 0) next.quants ∧ next = { p with quants := next.quants }) ?_ ⟨h.quants,rfl⟩ next hnext
    intro p' hp' i _
    refine Ensures.ite (fun _ => ?_) fun _ => Ensures.ok hp'
    cases quantKind res i with
    | none => exact Ensures.ok hp'
    | some k =>
      have hsingle (key : Bytes) : AllValues (· ≠ 0) (single key (Pi.single i 1 : Fin n → ℕ)) := by
        refine allValues_single fun hzero => ?_
        have hone := congrFun hzero i
        rw [Pi.single_eq_same] at hone
        cases hone
      have hadd {quants : ZHash (Fin n → ℕ)} (hq : AllValues (· ≠ 0) quants) (key : Bytes) :=
        hq.add (fun a b ha _ => row_add_ne_zero a b ha) (hsingle key)
      refine (addQuant_ensures ns i k.1 _ p'.quants).bind fun quants hquants => ?_
      refine (addQuant_ensures (lit "all_pages") i k.1 _ quants).bind fun quants' hquants' => Ensures.ok ?_
      refine ⟨?_,congrArg (fun p : Processor n => { p with quants := quants' }) hp'.2⟩
      rw [show ({ p' with quants := quants' } : Processor n).quants = quants' from rfl,hquants',hquants]
      exact hadd (hadd hp'.1 _) _
  rw [hrows.2]
  refine ⟨⟨h.decodable.minutes,fun key hkey => ?_,h.decodable.histograms⟩,hrows.1,h.histograms⟩
  rcases hkeys key hkey with hstored | ⟨e,-,-,rfl⟩
  · exact h.decodable.quants key hstored
  · exact ⟨_,e.quantsSelector_key⟩

lemma addAggregates (h : p.Filed) {env : Env n} (page module : Bytes) {minute : ℤ} (hminute : minute ∈ ints)
    (clock : Clock) (incs : Increments n) :
    Ensures (Importer.addAggregates env p page module minute clock.resource (clock.index env.res) incs)
      Processor.Filed := by
  have htotals := ((h.addTotals page incs).addTotals module incs).addTotals (lit "all_pages") incs
  have hminutes := ((htotals.addMinutes page minute incs).addMinutes module minute incs).addMinutes
    (lit "all_pages") minute incs
  exact (hminutes.addQuants env.res page incs).bind fun p hp => Ensures.ok
    (((hp.addHistogram page hminute clock _ incs).addHistogram module hminute clock _ incs).addHistogram
      (lit "all_pages") hminute clock _ incs)

end Processor.Filed

/-! Messages. -/

section Minutes
variable (env : Env n)

lemma frontendFiling_minute (clock : Clock) (incs : JObject → ℚ → Increments n) (request : JObject) :
    Ensures (frontendFiling env clock incs request) fun filing => ∀ f ∈ filing,f.minute ∈ ints := by
  unfold frontendFiling
  refine (ensures_true _).bind fun r _ => (ensures_true _).bind fun module _ => ?_
  refine (processorSetupMinute_mem _ _).bind fun r hminute => ?_
  refine Ensures.ite (fun _ => Ensures.ok fun _ hf => absurd hf (by simp)) fun _ => Ensures.ok fun f hf => ?_
  obtain rfl := Option.some.inj hf
  exact hminute

/-- The minute of a message is an int. -/
lemma Message.filing_minute (info : StreamInfo) (message : Message) :
    Ensures (message.filing env info) fun filing => ∀ f ∈ filing,f.minute ∈ ints := by
  have hnone : ∀ f ∈ (none : Option (Filing n)),f.minute ∈ ints := fun _ hf => absurd hf (by simp)
  cases message with
  | request body =>
    change Ensures (requestFiling env info body) _
    unfold requestFiling
    refine Ensures.ite (fun _ => Ensures.ok hnone) fun _ => ?_
    refine (ensures_true _).bind fun r _ => (ensures_true _).bind fun module _ => ?_
    refine (processorSetupMinute_mem _ _).bind fun r hminute => ?_
    refine (ensures_true _).bind fun r' _ => (ensures_true _).bind fun r' _ => ?_
    refine (ensures_true _).bind fun r' _ => (ensures_true _).bind fun incs _ => ?_
    refine Ensures.ok fun f hf => ?_
    obtain rfl := Option.some.inj hf
    exact hminute
  | page body tracked =>
    change Ensures (pageFiling env body tracked) _
    unfold pageFiling
    refine (ensures_true _).bind fun timings _ => ?_
    cases timings with
    | none => exact Ensures.ok hnone
    | some timings =>
      refine Ensures.ite (fun _ => Ensures.ok hnone) fun _ => Ensures.ite (fun _ => Ensures.ok hnone) fun _ => ?_
      exact frontendFiling_minute env _ _ _
  | ajax body tracked =>
    change Ensures (ajaxFiling env body tracked) _
    unfold ajaxFiling
    refine (ensures_true _).bind fun timings _ => ?_
    cases timings with
    | none => exact Ensures.ok hnone
    | some timings =>
      refine Ensures.ite (fun _ => Ensures.ok hnone) fun _ => Ensures.ite (fun _ => Ensures.ok hnone) fun _ => ?_
      exact frontendFiling_minute env _ _ _
  | jsException body =>
    change Ensures (jsExceptionFiling env body) _
    unfold jsExceptionFiling
    refine (ensures_true _).bind fun page _ => (ensures_true _).bind fun jsException _ => ?_
    refine Ensures.ite (fun _ => Ensures.ok hnone) fun _ => ?_
    refine (processorSetupMinute_mem _ _).bind fun r hminute => (ensures_true _).bind fun module _ => ?_
    refine Ensures.ok fun f hf => ?_
    obtain rfl := Option.some.inj hf
    exact hminute

end Minutes

variable {env : Env n}

theorem Processor.Filed.handle {p : Processor n} (h : p.Filed) (info : StreamInfo) (message : Message) :
    Ensures (message.handle env info p) Processor.Filed := by
  intro next hnext
  obtain ⟨filing,hfiling,hfiles⟩ := message.handle_files env info p next hnext
  have hmodule (module : Bytes) : (addModule p module).Filed := h.congr rfl
  cases hfiles with
  | dropped hsame => exact h.congr hsame
  | request hadd hsame =>
    have hminute := message.filing_minute env info _ hfiling _ rfl
    exact ((hmodule _).addAggregates _ _ hminute _ _ _ hadd).congr hsame
  | counters module hcounted =>
    rw [hcounted]
    exact List.foldlRecOn _ _ (hmodule module) fun p hp ns _ => (hp.addTotals ns _).addMinutes ns _ _

/-- The processor of a single message. -/
lemma forwardRequest_filed {msg : ParsedMsg} {state : ParserState n}
    (h : forwardRequest env 0 msg = .ok state) : AllValues Processor.Filed state.processors := by
  have hnew : ({ (processorNew : Processor n) with requestCount := 1 }).Filed := .new 1
  cases forwardRequest_cases h with
  | unknown htarget => exact allValues_zero
  | @request _ info _ hkind hp => exact allValues_single (hnew.handle info (.request _) _ hp)
  | jsException hkind hp => exact allValues_single (hnew.handle ⟨[],none,false,[]⟩ (.jsException _) _ hp)
  | event hkind hp =>
    obtain ⟨minute,-,hminute⟩ := bind_eq_ok_iff.mp hp
    obtain rfl := Except.ok.inj hminute
    exact allValues_single hnew
  | @frontend _ info kind reason p htarget hkind hp =>
    cases kind with
    | page =>
      have hhandle := congrArg (Except.map Prod.snd) hp
      exact allValues_single (hnew.handle info (.page _ msg.tracked) p hhandle)
    | ajax =>
      have hhandle := congrArg (Except.map Prod.snd) hp
      exact allValues_single (hnew.handle info (.ajax _ msg.tracked) p hhandle)
  | other hkind => exact allValues_single hnew

/-- What the updaters get. -/
structure Processor.Forwarded (env : Env n) (p : Processor n) : Prop where
  filed : p.Filed
  stored : p.Stored env

lemma Processor.Forwarded.add (p q : Processor n) (hp : p.Forwarded env) (hq : q.Forwarded env) :
    (p+q).Forwarded env where
  filed := Filed.add p q hp.filed hq.filed
  stored := (hp.stored.allIncrements.add Producible.plus hq.stored.allIncrements).stored

lemma Contributes.forwarded {msg : ParsedMsg} {c : ParserState n} (h : Contributes env msg c) :
    AllValues (Processor.Forwarded env) c.processors := by
  have hempty : (0 : ParserState n).Stored env := by
    intro dbName p hp
    rw [ParserState.zero_processors] at hp
    have hnone : (0 : ZHash (Processor n))[dbName]? = none := Std.ExtTreeMap.getElem?_empty
    exact absurd (hnone.symm.trans hp) (by simp)
  have hstored : c.Stored env := by
    rcases h.cases with rfl | ⟨dbName,info,hc⟩
    · exact hempty
    · exact hempty.handleMsg dbName info msg c hc
  obtain ⟨info,hc⟩ := h
  exact fun dbName p hp => ⟨forwardRequest_filed hc dbName p hp,hstored dbName p hp⟩

end Logjam.Importer

namespace Logjam.Importer.Controller
open Logjam.Library Logjam.Library.MergeMap Logjam.Library.PairwiseMerge Logjam.Importer

variable {n : ℕ} {env : Env n} {P : Processor n → Prop}

section Kept
variable (hadd : ∀ p q,P p → P q → P (p+q)) {tick : Tick n}
  (hparsed : ∀ msgs ∈ tick.parsers,∀ state,parseMsgs env msgs = .ok state → AllValues P state.processors)
include hadd hparsed

/-- What holds of the processors of the parsers, and is kept by merging, holds of all that the controller collects. -/
lemma collectStats_allValues {collected : List (ZHash (Processor n))} (h : ∀ hash ∈ collected,AllValues P hash) :
    Ensures (collectStats env collected tick) fun next => ∀ hash ∈ next,AllValues P hash := by
  intro next hnext
  obtain ⟨states,hstates,-⟩ := bind_eq_ok_iff.mp hnext
  rw [collectStats_of_parsed hstates] at hnext
  obtain rfl := Except.ok.inj hnext
  rw [List.forall_mem_singleton]
  refine (AllValues.sum hadd h).add hadd (AllValues.sum hadd (List.forall_mem_map.mpr fun state hstate => ?_))
  obtain ⟨msgs,hmsgs,hparse⟩ := exists_of_mem_mapM hstates hstate
  exact hparsed msgs hmsgs state hparse

theorem collectStatsAndForward_allValues {state : ControllerState n} (h : ∀ hash ∈ state.hashes,AllValues P hash) :
    Ensures (collectStatsAndForward env state tick) fun next => ∀ hash ∈ next.hashes,AllValues P hash := by
  rw [ControllerState.hashes,List.forall_mem_append] at h
  refine (collectStats_allValues hadd hparsed h.2).bind fun collected hcollected => ?_
  refine Ensures.ite (fun _ => ?_) fun _ => Ensures.ok ?_
  · cases collected with
    | nil =>
      refine Ensures.ok ?_
      rw [ControllerState.hashes,List.forall_mem_append]
      exact ⟨h.1,hcollected⟩
    | cons processors rest =>
      refine Ensures.ok ?_
      rw [List.forall_mem_cons] at hcollected
      rw [ControllerState.hashes,List.forall_mem_append,List.forall_mem_append,List.forall_mem_singleton]
      exact ⟨⟨h.1,hcollected.1⟩,hcollected.2⟩
  · rw [ControllerState.hashes,List.forall_mem_append]
    exact ⟨h.1,hcollected⟩

end Kept
end Logjam.Importer.Controller
