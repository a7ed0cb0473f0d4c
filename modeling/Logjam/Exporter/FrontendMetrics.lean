import Logjam.Importer.Request
import Logjam.Library.Ensures

/-! Frontend timings as the exporter reads them, next to the way the importer does. Both cut the
text at its commas; they differ in the numbers they take for a field, and in a base of zero. -/
namespace Logjam.Exporter
open Logjam.Library
open Logjam.Importer (FeMsgDropReason scanTimings extractFrontendTimings convertFrontendTimingsToJson
  navigationStart fetchStart requestStart responseStart responseEnd domInteractive domComplete loadEventEnd)

def numTimings : ℕ := 16

/-- The metrics of a page, in milliseconds. -/
structure Timings where
  navigationTime : ℤ
  connectTime : ℤ
  requestTime : ℤ
  responseTime : ℤ
  processingTime : ℤ
  loadTime : ℤ
  pageTime : ℤ
  domInteractive : ℤ
  deriving DecidableEq

/-- The names of the metrics in JSON. -/
def Timings.members (t : Timings) : List (Bytes × ℤ) :=
  [(lit "navigation_time",t.navigationTime),(lit "connect_time",t.connectTime),
    (lit "request_time",t.requestTime),(lit "response_time",t.responseTime),
    (lit "processing_time",t.processingTime),(lit "load_time",t.loadTime),
    (lit "page_time",t.pageTime),(lit "dom_interactive",t.domInteractive)]

inductive TimingError
  | wrongLength (got expected : ℕ)
  | notAnInt64 (element : Bytes)
  | negativeStart (value : ℤ)
  | domInteractive (value : ℤ)
  | unsorted (values : List ℤ)
  | negativeAjaxStart
  | ajaxEndBeforeStart
  deriving DecidableEq

def TimingError.text : TimingError → Bytes
  | .wrongLength got expected =>
    lit "rts has not the correct length: got " ++ decimal got ++ lit ", expected " ++ decimal expected
  | .notAnInt64 element => lit "could not convert rts element " ++ element ++ lit " to int64"
  | .negativeStart value => lit "navigationStart is less than zero: " ++ decimalInt value
  | .domInteractive value => lit "domIntercative is negative or zero: " ++ decimalInt value
  | .unsorted values =>
    lit "values are not properly sorted: [" ++ (lit " ").intercalate (values.map decimalInt) ++ lit "]"
  | .negativeAjaxStart => lit "ajax start is negative"
  | .ajaxEndBeforeStart => lit "ajax end is before ajax start"

/-- The value of a string of digits read after others. -/
def digitsFrom (value : ℕ) (s : Bytes) : ℕ := s.foldl (fun n c => 10*n+(c.toNat-48)) value

def Digits (s : Bytes) : Prop := ∀ c ∈ s,isDigit c

instance (s : Bytes) : Decidable (Digits s) := inferInstanceAs (Decidable (∀ c ∈ s,isDigit c))

/-- A number without its sign, if it is not above the bound. -/
def parseMagnitude (bound : ℕ) (s : Bytes) : Option ℕ :=
  if s ≠ [] ∧ Digits s ∧ digitsFrom 0 s ≤ bound then some (digitsFrom 0 s) else none

/-- strconv.ParseInt for base 10 and 64 bits. -/
def parseInt : Bytes → Option ℤ
  | 45::s => (parseMagnitude (2^63) s).map fun n : ℕ => -(n : ℤ)
  | 43::s => (parseMagnitude (2^63-1) s).map Nat.cast
  | s => (parseMagnitude (2^63-1) s).map Nat.cast

/-- strings.Split at the commas. -/
def fields (s : Bytes) : List Bytes := s.splitOn 44

def element (s : Bytes) : Except TimingError ℤ :=
  match parseInt s with
  | some v => .ok v
  | none => .error (.notAnInt64 s)

def extract (rts : Bytes) (n : ℕ) : Except TimingError (List ℤ) :=
  let elems := fields rts
  if elems.length ≠ n then .error (.wrongLength elems.length n) else elems.mapM element

def makeRelative (a : List ℤ) (base : ℤ) : List ℤ := a.map fun v => if v > 0 then toInt64 (v-base) else v

/-- The first n elements are compared. -/
def sortedAscending (a : List ℤ) (n : ℕ) : Bool :=
  (List.range n).all fun i => i = 0 || a.getD (i-1) 0 ≤ a.getD i 0

/-- The metrics, from timings relative to their base. -/
def timingsOf (t : ℕ → ℤ) : Timings where
  navigationTime := t fetchStart
  connectTime := toInt64 (t requestStart-t fetchStart)
  requestTime := toInt64 (t responseStart-t requestStart)
  responseTime := toInt64 (t responseEnd-t responseStart)
  processingTime := toInt64 (t domComplete-t responseEnd)
  loadTime := toInt64 (t loadEventEnd-t domComplete)
  pageTime := t loadEventEnd
  domInteractive := t domInteractive

/-- A base of zero is not treated specially. -/
def extractPageTimings (rts : Bytes) : Except TimingError Timings := do
  let timings ← extract rts numTimings
  let at' (l : List ℤ) (i : ℕ) := l.getD i 0
  let base := if at' timings navigationStart = 0 then at' timings fetchStart
    else at' timings navigationStart
  let t := at' (makeRelative (timings.set navigationStart base) base)
  let utimes := [t navigationStart,t requestStart,t responseStart,t responseEnd,t domComplete,
    t loadEventEnd,t domInteractive]
  if at' utimes 0 < 0 then throw (.negativeStart (at' utimes 0))
  if at' utimes 6 ≤ 0 then throw (.domInteractive (at' utimes 6))
  if !sortedAscending utimes 5 then throw (.unsorted (utimes.take 6))
  return timingsOf t

def extractAjaxTime (rts : Bytes) : Except TimingError ℤ := do
  let timings ← extract rts 2
  let (start,finish) := (timings.getD 0 0,timings.getD 1 0)
  if start < 0 then throw .negativeAjaxStart
  if start > finish then throw .ajaxEndBeforeStart
  return toInt64 (finish-start)

/-! The importer's way. -/

/-- The message of a page with its metrics, if it is accepted. -/
def importerPage (lib : JsonLib) (request : JObject) : Except Fault (Option JObject) := do
  match ← extractFrontendTimings lib request numTimings with
  | none => return none
  | some timings =>
    let (reason,_,request) := convertFrontendTimingsToJson request timings
    return if reason = .accepted then some request else none

/-- The time of an ajax request, if it is accepted. -/
def importerAjax (lib : JsonLib) (request : JObject) : Except Fault (Option ℤ) := do
  match ← extractFrontendTimings lib request 2 with
  | none => return none
  | some timings =>
    let ajaxTime := toInt64 (timings.getD 1 0-timings.getD 0 0)
    return if ajaxTime < 0 then none else some ajaxTime

/-- Both accept the page, with the same metrics, or neither does. -/
def PageAgrees (lib : JsonLib) (request : JObject) (rts : Bytes) : Prop :=
  match extractPageTimings rts with
  | .ok metrics => ∃ r, importerPage lib request = .ok (some r) ∧
      ∀ m ∈ metrics.members, r.lookup m.1 = some (.int m.2)
  | .error _ => importerPage lib request = .ok none

def AjaxAgrees (lib : JsonLib) (request : JObject) (rts : Bytes) : Prop :=
  match extractAjaxTime rts with
  | .ok time => importerAjax lib request = .ok (some time)
  | .error _ => importerAjax lib request = .ok none

/-! What the two make of the fields. -/

/-- The importer takes any number of digits, and what is left of their value. -/
def ImporterReads (n : ℕ) (rts : Bytes) (timings : List ℤ) : Prop :=
  (fields (cstr rts)).length = n ∧ (∀ s ∈ fields (cstr rts),Digits s) ∧
    timings = (fields (cstr rts)).map fun s => toInt64 (digitsFrom 0 s)

/-- The exporter takes the integers of 64 bits, with or without a sign. -/
def ExporterReads (n : ℕ) (rts : Bytes) (timings : List ℤ) : Prop :=
  (fields rts).length = n ∧ (fields rts).map parseInt = timings.map some

/-- Numbers below 2^63 without sign. -/
def Plain (rts : Bytes) : Prop := ∀ s ∈ fields rts, s ≠ [] ∧ Digits s ∧ digitsFrom 0 s < 2^63

/-- Navigation start, or fetch start in its place. -/
def baseOf (timings : List ℤ) : ℤ :=
  if timings.getD navigationStart 0 = 0 then timings.getD fetchStart 0 else timings.getD navigationStart 0

/-- A timing relative to the base. -/
def relative (timings : List ℤ) (i : ℕ) : ℤ :=
  (makeRelative (timings.set navigationStart (baseOf timings)) (baseOf timings)).getD i 0

/-- What both ask of the timings of a page. -/
def InOrder (timings : List ℤ) : Prop :=
  let t := relative timings
  0 ≤ t navigationStart ∧ 0 < t domInteractive ∧ t navigationStart ≤ t requestStart ∧
    t requestStart ≤ t responseStart ∧ t responseStart ≤ t responseEnd ∧ t responseEnd ≤ t domComplete

/-! Cutting at the commas. -/

lemma fields_comma (s : Bytes) : fields (44::s) = []::fields s := by
  simp [fields,List.splitOn,List.splitOnP_cons_eq_if_modifyHead]

lemma exists_fields_cons (c : UInt8) (s : Bytes) (h : c ≠ 44) :
    ∃ field rest, fields s = field::rest ∧ fields (c::s) = (c::field)::rest := by
  obtain ⟨field,rest,hs⟩ := List.exists_cons_of_ne_nil (List.splitOnP_ne_nil (· == 44) s)
  refine ⟨field,rest,hs,?_⟩
  simp only [fields,List.splitOn] at hs ⊢
  rw [List.splitOnP_cons_eq_if_modifyHead,if_neg (by simpa using h),hs]
  rfl

lemma mem_fields {c : UInt8} {s : Bytes} (h : c ∈ s) : c = 44 ∨ ∃ field ∈ fields s, c ∈ field := by
  induction s with
  | nil => exact absurd h List.not_mem_nil
  | cons d s ih =>
    by_cases hd : d = 44
    · subst hd
      rw [fields_comma]
      rcases List.mem_cons.mp h with rfl | h
      · exact .inl rfl
      · exact (ih h).imp_right fun ⟨field,hfield,hc⟩ => ⟨field,List.mem_cons_of_mem _ hfield,hc⟩
    · obtain ⟨field,rest,hs,hcons⟩ := exists_fields_cons d s hd
      rw [hcons]
      rw [hs] at ih
      rcases List.mem_cons.mp h with rfl | h
      · exact .inr ⟨_,List.mem_cons_self,List.mem_cons_self⟩
      · refine (ih h).imp_right ?_
        rintro ⟨g,hg,hc⟩
        rcases List.mem_cons.mp hg with rfl | hg
        · exact ⟨_,List.mem_cons_self,List.mem_cons_of_mem _ hc⟩
        · exact ⟨g,List.mem_cons_of_mem _ hg,hc⟩

lemma digits_cons {c : UInt8} {s : Bytes} : Digits (c::s) ↔ isDigit c ∧ Digits s := List.forall_mem_cons

/-- One round of the scanner. -/
lemma toInt64_digit {c : UInt8} (h : isDigit c) (value : ℕ) :
    toInt64 (toInt64 value*10+((c.toNat : ℤ)-48)) = toInt64 (10*value+(c.toNat-48) : ℕ) := by
  have hc := (isDigit_iff.mp h).1
  have hcast : ((10*value+(c.toNat-48) : ℕ) : ℤ) = (value : ℤ)*10+((c.toNat : ℤ)-48) := by omega
  rw [hcast,toInt64,toInt64,toInt64,← Int.bmod_add_bmod,Int.bmod_mul_bmod,Int.bmod_add_bmod]

/-- The scanner reads the fields that are left, the first of them from its digits so far. -/
lemma scanTimings_eq_some_iff {n : ℕ} {s field : Bytes} {rest : List Bytes} {times result : List ℤ}
    {value : ℕ} (hlength : times.length < n) (hs : fields s = field::rest) :
    scanTimings n s times (toInt64 value) = some result ↔
      times.length+1+rest.length = n ∧ (∀ g ∈ field::rest,Digits g) ∧
        result = times ++ toInt64 (digitsFrom value field)::rest.map fun g => toInt64 (digitsFrom 0 g) := by
  induction s generalizing field rest times value with
  | nil =>
    obtain ⟨rfl,rfl⟩ := List.cons.inj hs
    have hdigits : ∀ g ∈ [([] : Bytes)],Digits g := by simp [Digits]
    rw [scanTimings,List.length_append,List.length_singleton]
    by_cases hn : times.length+1 = n
    · rw [if_neg (by omega)]
      exact ⟨fun h => ⟨hn,hdigits,(Option.some.inj h).symm⟩,fun h => congrArg some h.2.2.symm⟩
    · rw [if_pos (by omega)]
      exact ⟨nofun,fun h => absurd h.1 hn⟩
  | cons c s ih =>
    by_cases hc : c = 44
    · subst hc
      rw [fields_comma] at hs
      obtain ⟨rfl,rfl⟩ := List.cons.inj hs
      obtain ⟨next,rest,hrest⟩ := List.exists_cons_of_ne_nil (List.splitOnP_ne_nil (· == 44) s)
      have hrest : fields s = next::rest := hrest
      rw [scanTimings,if_pos rfl,List.length_append,List.length_singleton,hrest]
      by_cases hn : times.length+1 = n
      · -- too many values
        rw [if_pos hn]
        simp only [List.length_cons,reduceCtorEq,false_iff,not_and]
        omega
      · rw [if_neg hn,← show toInt64 (0 : ℕ) = 0 from rfl,
          ih (by rw [List.length_append,List.length_singleton]; omega) hrest]
        have hlengths : times.length+1+1+rest.length = times.length+1+(rest.length+1) := by omega
        simp [digitsFrom,Digits,hlengths]
    · obtain ⟨g,rest',hg,hcons⟩ := exists_fields_cons c s hc
      obtain ⟨rfl,rfl⟩ := List.cons.inj (hcons.symm.trans hs)
      rw [scanTimings,if_neg hc]
      by_cases hdigit : isDigit c
      · rw [if_pos hdigit,toInt64_digit hdigit,ih hlength hg]
        simp [digits_cons,hdigit,digitsFrom]
      · rw [if_neg hdigit]
        simp [digits_cons,hdigit]

section
variable {lib : JsonLib} {request : JObject} {rts : Bytes} {n : ℕ} {timings : List ℤ}

theorem extractFrontendTimings_iff (hrts : request.lookup (lit "rts") = some (.str rts)) (hn : 0 < n) :
    extractFrontendTimings lib request n = .ok (some timings) ↔ ImporterReads n rts timings := by
  obtain ⟨field,rest,hfields⟩ := List.exists_cons_of_ne_nil (List.splitOnP_ne_nil (· == 44) (cstr rts))
  have hfields : fields (cstr rts) = field::rest := hfields
  have hscan : extractFrontendTimings lib request n = .ok (scanTimings n (cstr rts) [] (toInt64 (0 : ℕ))) := by
    rw [extractFrontendTimings,hrts]
    rfl
  rw [hscan,Except.ok.injEq,scanTimings_eq_some_iff hn hfields,ImporterReads,hfields,List.length_nil,
    Nat.zero_add,List.length_cons,Nat.add_comm 1,List.map_cons,List.nil_append]

lemma exists_extractFrontendTimings (lib : JsonLib) (n : ℕ)
    (hrts : request.lookup (lit "rts") = some (.str rts)) :
    ∃ result, extractFrontendTimings lib request n = .ok result := by
  rw [extractFrontendTimings,hrts]
  exact ⟨_,rfl⟩

lemma importerReads_iff (hrts : request.lookup (lit "rts") = some (.str rts)) (hn : 0 < n)
    {result : Option (List ℤ)} (h : extractFrontendTimings lib request n = .ok result) (t : List ℤ) :
    ImporterReads n rts t ↔ result = some t := by
  rw [← extractFrontendTimings_iff hrts hn,h,Except.ok.injEq]

lemma element_iff {s : Bytes} {v : ℤ} : element s = .ok v ↔ parseInt s = some v := by
  unfold element
  split <;> simp [*]

theorem extract_iff : extract rts n = .ok timings ↔ ExporterReads n rts timings := by
  unfold extract ExporterReads
  by_cases hlength : (fields rts).length = n
  · rw [← List.forall₂_eq_eq_eq,List.forall₂_map_left_iff,List.forall₂_map_right_iff]
    simp only [hlength,ne_eq,not_true_eq_false,if_false,true_and,mapM_eq_ok_iff,element_iff]
  · simp [hlength]

/-- The check of the importer, on timings relative to their base. -/
def rejects (t : ℕ → ℤ) : Bool :=
  t navigationStart < 0 || t domInteractive ≤ 0 || !Importer.sortedAscending
    [t navigationStart,t requestStart,t responseStart,t responseEnd,t domComplete]

instance (timings : List ℤ) : Decidable (InOrder timings) := by
  unfold InOrder
  infer_instance

lemma rejects_iff : rejects (relative timings) = true ↔ ¬InOrder timings := by
  simp only [rejects,InOrder,Importer.sortedAscending,Bool.or_eq_true,decide_eq_true_eq,Bool.not_eq_true',
    Bool.and_true,Bool.and_eq_false_iff,decide_eq_false_iff_not]
  omega

def addMetrics (request : JObject) (metrics : Timings) : JObject :=
  metrics.members.foldl (fun r m => r.add m.1 (.int m.2)) request

lemma convert_eq : convertFrontendTimingsToJson request timings =
    (if baseOf timings = 0 then
      (if (timings.set navigationStart (baseOf timings)).all (· == 0) then .navTiming else .invalid,
        timings.set navigationStart (baseOf timings),request)
    else
      let relative' := makeRelative (timings.set navigationStart (baseOf timings)) (baseOf timings)
      if rejects (relative timings) then (.invalid,relative',request)
      else (.accepted,relative',addMetrics request (timingsOf (relative timings)))) := rfl

lemma set_baseOf (hbase : baseOf timings = 0) : timings.set navigationStart (baseOf timings) = timings := by
  have hnav : timings.getD navigationStart 0 = 0 := by
    by_contra hne
    rw [baseOf,if_neg hne] at hbase
    exact hne hbase
  rw [hbase]
  cases timings with
  | nil => rfl
  | cons t rest => exact congrArg (·::rest) hnav.symm

lemma baseOf_of_all_zero (h : timings.all (· == 0)) : baseOf timings = 0 := by
  have hget (i : ℕ) : timings.getD i 0 = 0 := by
    rw [List.getD_eq_getElem?_getD]
    cases hi : timings[i]? with
    | none => rfl
    | some t => exact beq_iff_eq.mp (List.all_eq_true.mp h t (List.mem_of_getElem? hi))
  rw [baseOf,hget,hget,if_pos rfl]

/-- What becomes of a page whose timings can be read. -/
lemma convert_reason : (convertFrontendTimingsToJson request timings).1 =
    if timings.all (· == 0) then .navTiming
    else if baseOf timings ≠ 0 ∧ InOrder timings then .accepted else .invalid := by
  rw [convert_eq]
  by_cases hbase : baseOf timings = 0
  · rw [if_pos hbase,set_baseOf hbase]
    simp [hbase]
  · have hzero : ¬timings.all (· == 0) := fun h => hbase (baseOf_of_all_zero h)
    rw [if_neg hbase,if_neg hzero]
    dsimp only
    by_cases horder : InOrder timings
    · rw [if_neg fun h => rejects_iff.mp h horder,if_pos ⟨hbase,horder⟩]
    · rw [if_pos (rejects_iff.mpr horder),if_neg fun h => horder h.2]

lemma convert_accepted_iff : (convertFrontendTimingsToJson request timings).1 = .accepted ↔
    baseOf timings ≠ 0 ∧ InOrder timings := by
  rw [convert_reason]
  split_ifs with hzero haccepted
  · simp [baseOf_of_all_zero hzero]
  · simpa using haccepted
  · simpa using haccepted

lemma convert_request (h : (convertFrontendTimingsToJson request timings).1 = .accepted) :
    (convertFrontendTimingsToJson request timings).2.2 = addMetrics request (timingsOf (relative timings)) := by
  obtain ⟨hbase,horder⟩ := convert_accepted_iff.mp h
  rw [convert_eq,if_neg hbase]
  dsimp only
  rw [if_neg fun h => rejects_iff.mp h horder]

lemma importerPage_of_reads (hreads : extractFrontendTimings lib request numTimings = .ok (some timings)) :
    importerPage lib request = .ok (if baseOf timings ≠ 0 ∧ InOrder timings then
      some (addMetrics request (timingsOf (relative timings))) else none) := by
  have hpage : importerPage lib request = .ok
      (if (convertFrontendTimingsToJson request timings).1 = .accepted then
        some (convertFrontendTimingsToJson request timings).2.2 else none) := by
    rw [importerPage,hreads]
    rfl
  rw [hpage]
  by_cases haccepted : (convertFrontendTimingsToJson request timings).1 = .accepted
  · rw [if_pos haccepted,convert_request haccepted,if_pos (convert_accepted_iff.mp haccepted)]
  · rw [if_neg haccepted,if_neg fun h => haccepted (convert_accepted_iff.mpr h)]

theorem importerPage_iff (hrts : request.lookup (lit "rts") = some (.str rts)) {r : JObject} :
    importerPage lib request = .ok (some r) ↔ ∃ t, ImporterReads numTimings rts t ∧ baseOf t ≠ 0 ∧ InOrder t ∧
      r = addMetrics request (timingsOf (relative t)) := by
  obtain ⟨result,hresult⟩ := exists_extractFrontendTimings lib numTimings hrts
  simp only [importerReads_iff hrts (by decide) hresult]
  cases result with
  | none =>
    rw [importerPage,hresult]
    simp [bind,Except.bind,pure,Except.pure]
  | some t =>
    rw [importerPage_of_reads hresult]
    simp only [Except.ok.injEq,Option.some.injEq,exists_eq_left',Option.ite_none_right_eq_some,and_assoc]
    exact and_congr_right fun _ => and_congr_right fun _ => eq_comm

lemma mem_members_nodup (metrics : Timings) : (metrics.members.map Prod.fst).Nodup := by
  simp only [Timings.members,List.map_cons,List.map_nil]
  decide

lemma lookup_foldl_add {members : List (Bytes × ℤ)} (hnodup : (members.map Prod.fst).Nodup)
    {m : Bytes × ℤ} (hm : m ∈ members) (request : JObject) :
    (members.foldl (fun r m => r.add m.1 (.int m.2)) request).lookup m.1 = some (.int m.2) := by
  induction members using List.reverseRecOn with
  | nil => exact absurd hm List.not_mem_nil
  | append_singleton members last ih =>
    rw [List.foldl_append,List.foldl_cons,List.foldl_nil,JObject.lookup_add]
    rw [List.map_append,List.nodup_append] at hnodup
    rcases List.mem_append.mp hm with hm | hm
    · have hne : last.1 ≠ m.1 := fun h =>
        hnodup.2.2 m.1 (List.mem_map_of_mem hm) last.1 (by simp) h.symm
      rw [if_neg hne,ih hnodup.1 hm]
    · rw [List.mem_singleton.mp hm,if_pos rfl]

lemma lookup_addMetrics (metrics : Timings) {m : Bytes × ℤ} (hm : m ∈ metrics.members) :
    (addMetrics request metrics).lookup m.1 = some (.int m.2) :=
  lookup_foldl_add (mem_members_nodup metrics) hm request

lemma sortedAscending_iff (t : ℕ → ℤ) : sortedAscending [t navigationStart,t requestStart,t responseStart,
    t responseEnd,t domComplete,t loadEventEnd,t domInteractive] 5 = true ↔
      t navigationStart ≤ t requestStart ∧ t requestStart ≤ t responseStart ∧
        t responseStart ≤ t responseEnd ∧ t responseEnd ≤ t domComplete := by
  simp [sortedAscending,List.range_succ]

lemma extractPageTimings_of_extract (hextract : extract rts numTimings = .ok timings) {metrics : Timings} :
    extractPageTimings rts = .ok metrics ↔ InOrder timings ∧ metrics = timingsOf (relative timings) := by
  have hpage : extractPageTimings rts =
      (if relative timings navigationStart < 0 then .error (.negativeStart (relative timings navigationStart))
      else if relative timings domInteractive ≤ 0 then
        .error (.domInteractive (relative timings domInteractive))
      else if !sortedAscending [relative timings navigationStart,relative timings requestStart,
          relative timings responseStart,relative timings responseEnd,relative timings domComplete,
          relative timings loadEventEnd,relative timings domInteractive] 5 then
        .error (.unsorted [relative timings navigationStart,relative timings requestStart,
          relative timings responseStart,relative timings responseEnd,relative timings domComplete,
          relative timings loadEventEnd])
      else .ok (timingsOf (relative timings))) := by
    rw [extractPageTimings,hextract]
    rfl
  rw [hpage]
  by_cases hstart : relative timings navigationStart < 0
  · rw [if_pos hstart]
    exact ⟨nofun,fun h => absurd h.1.1 (not_le.mpr hstart)⟩
  by_cases hdom : relative timings domInteractive ≤ 0
  · rw [if_neg hstart,if_pos hdom]
    exact ⟨nofun,fun h => absurd h.1.2.1 (not_lt.mpr hdom)⟩
  have hsorted := sortedAscending_iff (relative timings)
  rw [if_neg hstart,if_neg hdom]
  split
  · rename_i hunsorted
    rw [Bool.not_eq_true',← Bool.not_eq_true,hsorted] at hunsorted
    exact ⟨nofun,fun h => absurd h.1.2.2 hunsorted⟩
  · rename_i hnot
    rw [Bool.not_eq_true',Bool.not_eq_false,hsorted] at hnot
    have horder : InOrder timings := ⟨not_lt.mp hstart,not_le.mp hdom,hnot⟩
    exact ⟨fun h => ⟨horder,(Except.ok.inj h).symm⟩,fun h => congrArg Except.ok h.2.symm⟩

theorem extractPageTimings_iff {metrics : Timings} :
    extractPageTimings rts = .ok metrics ↔
      ∃ t, ExporterReads numTimings rts t ∧ InOrder t ∧ metrics = timingsOf (relative t) := by
  simp only [← extract_iff]
  cases hextract : extract rts numTimings with
  | error e =>
    rw [extractPageTimings,hextract]
    simp [bind,Except.bind]
  | ok t => simp only [extractPageTimings_of_extract hextract,Except.ok.injEq,exists_eq_left']

theorem importerAjax_iff (hrts : request.lookup (lit "rts") = some (.str rts)) {time : ℤ} :
    importerAjax lib request = .ok (some time) ↔ ∃ t, ImporterReads 2 rts t ∧
      0 ≤ toInt64 (t.getD 1 0-t.getD 0 0) ∧ time = toInt64 (t.getD 1 0-t.getD 0 0) := by
  obtain ⟨result,hresult⟩ := exists_extractFrontendTimings lib 2 hrts
  simp only [importerReads_iff hrts (by decide) hresult]
  rw [importerAjax,hresult]
  cases result with
  | none => simp [bind,Except.bind,pure,Except.pure]
  | some t =>
    simp only [bind,Except.bind,pure,Except.pure,Option.some.injEq,exists_eq_left',Except.ok.injEq,
      Option.ite_none_left_eq_some,not_lt]
    exact and_congr_right fun _ => eq_comm

theorem extractAjaxTime_iff {time : ℤ} :
    extractAjaxTime rts = .ok time ↔ ∃ t, ExporterReads 2 rts t ∧ 0 ≤ t.getD 0 0 ∧ t.getD 0 0 ≤ t.getD 1 0 ∧
      time = toInt64 (t.getD 1 0-t.getD 0 0) := by
  simp only [← extract_iff]
  rw [extractAjaxTime]
  cases extract rts 2 with
  | error e => simp [bind,Except.bind]
  | ok t =>
    simp only [bind,Except.bind,pure,Except.pure,Except.ok.injEq,exists_eq_left']
    by_cases hstart : t.getD 0 0 < 0
    · rw [if_pos hstart]
      exact ⟨nofun,fun h => absurd h.1 (not_le.mpr hstart)⟩
    rw [if_neg hstart]
    by_cases horder : t.getD 1 0 < t.getD 0 0
    · simp only [gt_iff_lt,horder,if_true]
      exact ⟨nofun,fun h => absurd h.2.1 (not_le.mpr horder)⟩
    · simp only [gt_iff_lt,horder,if_false,Except.ok.injEq]
      exact ⟨fun h => ⟨not_lt.mp hstart,not_lt.mp horder,h.symm⟩,fun h => h.2.2.symm⟩

/-! Where the two agree on the fields. -/

lemma parseMagnitude_iff {bound value : ℕ} {s : Bytes} :
    parseMagnitude bound s = some value ↔
      (s ≠ [] ∧ Digits s ∧ digitsFrom 0 s ≤ bound) ∧ value = digitsFrom 0 s := by
  rw [parseMagnitude,Option.ite_none_right_eq_some,Option.some.injEq,eq_comm]

lemma parseInt_of_digits {s : Bytes} (h : Digits s) {v : ℤ} :
    parseInt s = some v ↔ s ≠ [] ∧ digitsFrom 0 s < 2^63 ∧ v = digitsFrom 0 s := by
  have hplain : parseInt s = (parseMagnitude (2^63-1) s).map Nat.cast := by
    unfold parseInt
    split
    · exact absurd (h 45 List.mem_cons_self) (by decide)
    · exact absurd (h 43 List.mem_cons_self) (by decide)
    · rfl
  simp only [hplain,Option.map_eq_some_iff,parseMagnitude_iff]
  constructor
  · rintro ⟨n,⟨⟨hne,-,hbound⟩,rfl⟩,rfl⟩
    exact ⟨hne,by omega,rfl⟩
  · rintro ⟨hne,hbound,rfl⟩
    exact ⟨_,⟨⟨hne,h,by omega⟩,rfl⟩,rfl⟩

lemma ne_zero_of_digits {s : Bytes} (h : Digits s) {c : UInt8} (hc : c ∈ s) : c ≠ 0 := by
  rintro rfl
  exact absurd (h 0 hc) (by decide)

/-- There is no NUL in an integer. -/
lemma ne_zero_of_parseInt {s : Bytes} {v : ℤ} (h : parseInt s = some v) {c : UInt8} (hc : c ∈ s) : c ≠ 0 := by
  have hmagnitude {bound : ℕ} {f : ℕ → ℤ} {t : Bytes} (h : (parseMagnitude bound t).map f = some v) :
      Digits t := by
    obtain ⟨n,hn,-⟩ := Option.map_eq_some_iff.mp h
    exact (parseMagnitude_iff.mp hn).1.2.1
  unfold parseInt at h
  split at h
  · rcases List.mem_cons.mp hc with rfl | hc
    · decide
    · exact ne_zero_of_digits (hmagnitude h) hc
  · rcases List.mem_cons.mp hc with rfl | hc
    · decide
    · exact ne_zero_of_digits (hmagnitude h) hc
  · exact ne_zero_of_digits (hmagnitude h) hc

lemma cstr_of_fields {s : Bytes} (h : ∀ field ∈ fields s,∀ c ∈ field,c ≠ 0) : cstr s = s := by
  apply cstr_of_notMem
  intro hzero
  rcases mem_fields hzero with heq | ⟨field,hfield,hmem⟩
  · exact absurd heq (by decide)
  · exact h field hfield 0 hmem rfl

lemma ExporterReads.parseInt (h : ExporterReads n rts timings) {field : Bytes} (hfield : field ∈ fields rts) :
    ∃ v, parseInt field = some v := by
  have hmem : Exporter.parseInt field ∈ timings.map some := h.2 ▸ List.mem_map_of_mem hfield
  obtain ⟨v,-,hv⟩ := List.mem_map.mp hmem
  exact ⟨v,hv.symm⟩

lemma ExporterReads.cstr_eq (h : ExporterReads n rts timings) : cstr rts = rts := by
  refine cstr_of_fields fun field hfield c hc => ?_
  obtain ⟨v,hv⟩ := h.parseInt hfield
  exact ne_zero_of_parseInt hv hc

lemma Plain.cstr_eq (h : Plain rts) : cstr rts = rts :=
  cstr_of_fields fun field hfield _ hc => ne_zero_of_digits (h field hfield).2.1 hc

/-- A text that both can read has plain fields. -/
lemma plain_of_reads {t : List ℤ} (himporter : ImporterReads n rts timings) (hexporter : ExporterReads n rts t) :
    Plain rts := by
  intro field hfield
  have hdigits : Digits field := himporter.2.1 field (hexporter.cstr_eq.symm ▸ hfield)
  obtain ⟨v,hv⟩ := hexporter.parseInt hfield
  obtain ⟨hne,hbound,-⟩ := (parseInt_of_digits hdigits).mp hv
  exact ⟨hne,hdigits,hbound⟩

/-- Plain fields are read alike. -/
lemma Plain.reads_iff (h : Plain rts) : ImporterReads n rts timings ↔ ExporterReads n rts timings := by
  have hdigits : ∀ field ∈ fields rts,Digits field := fun field hfield => (h field hfield).2.1
  have hparse : (fields rts).map parseInt = ((fields rts).map fun s => toInt64 (digitsFrom 0 s)).map some := by
    rw [List.map_map]
    refine List.map_congr_left fun field hfield => ?_
    obtain ⟨hne,hfield,hbound⟩ := h field hfield
    rw [Function.comp_apply,toInt64_of_lt (by omega) (by exact_mod_cast hbound)]
    exact (parseInt_of_digits hfield).mpr ⟨hne,hbound,rfl⟩
  rw [ImporterReads,ExporterReads,h.cstr_eq,hparse,List.map_inj_right fun _ _ => Option.some.inj]
  exact and_congr_right fun _ => ⟨fun hreads => hreads.2.symm,fun hreads => ⟨hdigits,hreads.symm⟩⟩

/-- Plain values are not negative, and their differences do not overflow. -/
lemma Plain.mem_range (h : Plain rts) (hreads : ImporterReads n rts timings) (i : ℕ) :
    0 ≤ timings.getD i 0 ∧ timings.getD i 0 < 2^63 := by
  obtain ⟨-,-,rfl⟩ := hreads
  rw [h.cstr_eq,List.getD_eq_getElem?_getD,List.getElem?_map]
  cases hfield : (fields rts)[i]? with
  | none => simp
  | some field =>
    have hbound := (h field (List.mem_of_getElem? hfield)).2.2
    rw [Option.map_some,Option.getD_some,toInt64_of_lt (by omega) (by exact_mod_cast hbound)]
    exact ⟨by omega,by exact_mod_cast hbound⟩

lemma importerPage_cases (lib : JsonLib) (hrts : request.lookup (lit "rts") = some (.str rts)) :
    importerPage lib request = .ok none ∨ ∃ r, importerPage lib request = .ok (some r) := by
  obtain ⟨result,hresult⟩ := exists_extractFrontendTimings lib numTimings hrts
  cases result with
  | none =>
    rw [importerPage,hresult]
    exact .inl rfl
  | some t =>
    rw [importerPage_of_reads hresult]
    split
    · exact .inr ⟨_,rfl⟩
    · exact .inl rfl

lemma importerAjax_cases (lib : JsonLib) (hrts : request.lookup (lit "rts") = some (.str rts)) :
    importerAjax lib request = .ok none ∨ ∃ time, importerAjax lib request = .ok (some time) := by
  obtain ⟨result,hresult⟩ := exists_extractFrontendTimings lib 2 hrts
  rw [importerAjax,hresult]
  cases result with
  | none => exact .inl rfl
  | some t =>
    simp only [bind,Except.bind,pure,Except.pure]
    split
    · exact .inl rfl
    · exact .inr ⟨_,rfl⟩

lemma pageAgrees_iff (hrts : request.lookup (lit "rts") = some (.str rts)) : PageAgrees lib request rts ↔
    (∀ t, ImporterReads numTimings rts t → baseOf t ≠ 0 → InOrder t → Plain rts) ∧
      ∀ t, ExporterReads numTimings rts t → InOrder t → Plain rts ∧ baseOf t ≠ 0 := by
  unfold PageAgrees
  cases hpage : extractPageTimings rts with
  | error e =>
    have hrejects {t : List ℤ} (ht : ExporterReads numTimings rts t) (horder : InOrder t) : False :=
      nomatch hpage.symm.trans (extractPageTimings_iff.mpr ⟨t,ht,horder,rfl⟩)
    constructor
    · intro hnone
      refine ⟨fun t ht hbase horder => ?_,fun t ht horder => (hrejects ht horder).elim⟩
      exact nomatch hnone.symm.trans ((importerPage_iff hrts).mpr ⟨t,ht,hbase,horder,rfl⟩)
    · rintro ⟨himporter,-⟩
      refine (importerPage_cases lib hrts).resolve_right ?_
      rintro ⟨r,hr⟩
      obtain ⟨t,ht,hbase,horder,-⟩ := (importerPage_iff hrts).mp hr
      exact hrejects ((himporter t ht hbase horder).reads_iff.mp ht) horder
  | ok metrics =>
    obtain ⟨t,ht,horder,rfl⟩ := extractPageTimings_iff.mp hpage
    constructor
    · rintro ⟨r,hr,-⟩
      obtain ⟨t',ht',hbase,horder',-⟩ := (importerPage_iff hrts).mp hr
      have hplain := plain_of_reads ht' ht
      refine ⟨fun _ _ _ _ => hplain,fun u hu _ => ⟨hplain,?_⟩⟩
      -- the readings of plain fields are the same
      have hsame : t' = u := ht'.2.2.trans (hplain.reads_iff.mpr hu).2.2.symm
      exact hsame ▸ hbase
    · rintro ⟨-,hexporter⟩
      obtain ⟨hplain,hbase⟩ := hexporter t ht horder
      have hreads := hplain.reads_iff.mpr ht
      exact ⟨_,(importerPage_iff hrts).mpr ⟨t,hreads,hbase,horder,rfl⟩,
        fun m hm => lookup_addMetrics _ hm⟩

lemma ajaxAgrees_iff (hrts : request.lookup (lit "rts") = some (.str rts)) : AjaxAgrees lib request rts ↔
    (∀ t, ImporterReads 2 rts t → 0 ≤ toInt64 (t.getD 1 0-t.getD 0 0) → Plain rts) ∧
      ∀ t, ExporterReads 2 rts t → 0 ≤ t.getD 0 0 → t.getD 0 0 ≤ t.getD 1 0 → Plain rts := by
  have hdifference {t : List ℤ} (hplain : Plain rts) (ht : ImporterReads 2 rts t) :
      toInt64 (t.getD 1 0-t.getD 0 0) = t.getD 1 0-t.getD 0 0 := by
    have hstart := hplain.mem_range ht 0
    have hend := hplain.mem_range ht 1
    exact toInt64_of_lt (by omega) (by omega)
  unfold AjaxAgrees
  cases hajax : extractAjaxTime rts with
  | error e =>
    have hrejects {t : List ℤ} (ht : ExporterReads 2 rts t) (hstart : 0 ≤ t.getD 0 0)
        (horder : t.getD 0 0 ≤ t.getD 1 0) : False :=
      nomatch hajax.symm.trans (extractAjaxTime_iff.mpr ⟨t,ht,hstart,horder,rfl⟩)
    constructor
    · intro hnone
      refine ⟨fun t ht htime => ?_,fun t ht hstart horder => (hrejects ht hstart horder).elim⟩
      exact nomatch hnone.symm.trans ((importerAjax_iff hrts).mpr ⟨t,ht,htime,rfl⟩)
    · rintro ⟨himporter,-⟩
      refine (importerAjax_cases lib hrts).resolve_right ?_
      rintro ⟨time,htime⟩
      obtain ⟨t,ht,hpos,-⟩ := (importerAjax_iff hrts).mp htime
      have hplain := himporter t ht hpos
      rw [hdifference hplain ht] at hpos
      exact hrejects (hplain.reads_iff.mp ht) (hplain.mem_range ht 0).1 (by omega)
  | ok time =>
    obtain ⟨t,ht,hstart,horder,rfl⟩ := extractAjaxTime_iff.mp hajax
    constructor
    · intro hsome
      obtain ⟨t',ht',-,-⟩ := (importerAjax_iff hrts).mp hsome
      have hplain := plain_of_reads ht' ht
      exact ⟨fun _ _ _ => hplain,fun _ _ _ _ => hplain⟩
    · rintro ⟨-,hexporter⟩
      have hplain := hexporter t ht hstart horder
      have hreads := hplain.reads_iff.mpr ht
      exact (importerAjax_iff hrts).mpr ⟨t,hreads,by rw [hdifference hplain hreads]; omega,rfl⟩

/-- Importer and exporter agree on a text unless one of them accepts timings with a field that is
not a plain number, or the exporter accepts a page whose base is zero. -/
theorem frontend_agree_iff (lib : JsonLib) (hrts : request.lookup (lit "rts") = some (.str rts)) :
    (PageAgrees lib request rts ↔
      (∀ t, ImporterReads numTimings rts t → baseOf t ≠ 0 → InOrder t → Plain rts) ∧
        ∀ t, ExporterReads numTimings rts t → InOrder t → Plain rts ∧ baseOf t ≠ 0) ∧
    (AjaxAgrees lib request rts ↔
      (∀ t, ImporterReads 2 rts t → 0 ≤ toInt64 (t.getD 1 0-t.getD 0 0) → Plain rts) ∧
        ∀ t, ExporterReads 2 rts t → 0 ≤ t.getD 0 0 → t.getD 0 0 ≤ t.getD 1 0 → Plain rts) :=
  ⟨pageAgrees_iff hrts,ajaxAgrees_iff hrts⟩

end

instance (rts : Bytes) : Decidable (Plain rts) :=
  inferInstanceAs (Decidable (∀ s ∈ fields rts, s ≠ [] ∧ Digits s ∧ digitsFrom 0 s < 2^63))

def timingMessage (rts : Bytes) : JObject := [(lit "rts",.str rts)]

lemma lookup_timingMessage (rts : Bytes) : (timingMessage rts).lookup (lit "rts") = some (.str rts) := by
  rw [timingMessage,JObject.lookup_cons,if_pos rfl]

theorem frontend_agree_ajax : AjaxAgrees .blank (timingMessage (lit "100,350")) (lit "100,350") := by
  have hplain : Plain (lit "100,350") := by decide +kernel
  have hiff := (frontend_agree_iff .blank (lookup_timingMessage (lit "100,350"))).2
  rw [hiff]
  exact ⟨fun _ _ _ => hplain,fun _ _ _ _ => hplain⟩

/-- The importer takes an empty field for zero, the exporter takes signs and a base of zero. -/
theorem frontend_disagree :
    (importerAjax .blank (timingMessage (lit ",350")) = .ok (some 350) ∧
      extractAjaxTime (lit ",350") = .error (.notAnInt64 [])) ∧
    (importerAjax .blank (timingMessage (lit "+100,350")) = .ok none ∧
      extractAjaxTime (lit "+100,350") = .ok 250) ∧
    (importerPage .blank (timingMessage (lit "0,0,0,0,0,0,1,2,3,3,4,4,4,5,6,7"))).toOption.map
        Option.isSome = some false ∧
      (extractPageTimings (lit "0,0,0,0,0,0,1,2,3,3,4,4,4,5,6,7")).toOption.map Timings.pageTime = some 7 := by
  decide +kernel

end Logjam.Exporter
