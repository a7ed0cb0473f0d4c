import Logjam.Exporter.Collector
import Logjam.Importer.CounterKeys

/-! The total time of a request in the exporter and in the importer. The exporter reads all members of a message as
texts, and a number turns into the digits of an int on the way. -/
namespace Logjam.Exporter
open Logjam.Library Logjam.Importer

/-- The conversion of a number to an int cuts its fraction off. -/
def truncated (x : ℚ) : ℤ := x.num.tdiv x.den

def IsInt64 (n : ℤ) : Prop := -2^63 ≤ n ∧ n < 2^63

instance (n : ℤ) : Decidable (IsInt64 n) := inferInstanceAs (Decidable (_ ∧ _))

/-- What the libraries do with numbers. The conversion of a number that does not fit an int gives some int. -/
structure GoLib.Numbers (go : GoLib) : Prop where
  itoa : ∀ x,∃ n,IsInt64 n ∧ go.itoa x = decimalInt n ∧ (IsInt64 (truncated x) → n = truncated x)
  parseFloat : ∀ n,IsInt64 n → go.parseFloat (decimalInt n) = some (n : ℚ)

/-- The value of a JSON number. -/
def numberOf : Json → Option ℚ
  | .int n => some n
  | .double x => some x
  | _ => none

/-- The total time of a request that is not ignored, after the steps before it. -/
def usedTotalTime (lib : JsonLib) (request : JObject) : Except Fault ℚ := do
  let (_,request) ← processorSetupPage lib request
  let request := (processorSetupResponseCode lib request).2
  let request := (processorSetupSeverity lib request).2
  let (_,request) ← processorSetupMinute lib request
  return (processorSetupTime lib request (lit "total_time") none).1

variable {n : ℕ} {env : Env n} {info : StreamInfo} {go : GoLib} {c : Collector} {request : JObject} {f : Filing n}
  {props : List (Bytes × Bytes)} {value : ℚ}

/-! The importer. -/

/-- Missing and zero times count as one. -/
def defaultedTime (time : Option ℚ) : ℚ := if time.getD 0 = 0 then 1 else time.getD 0

lemma processorSetupTime_fst (lib : JsonLib) (request : JObject) (name : Bytes) :
    (processorSetupTime lib request name none).1 = defaultedTime ((request.lookup name).map (jsonObjectGetDouble lib)) := by
  unfold processorSetupTime defaultedTime
  cases request.lookup name with
  | none => rfl
  | some v =>
    dsimp only [Option.map_some,Option.getD_some]
    split_ifs <;> rfl

/-- What the steps before do with the message does not matter, and the time is the one that gets filed. -/
theorem usedTotalTime_of_requestFiling (h : requestFiling env info request = .ok (some f)) :
    usedTotalTime env.json request =
      .ok (defaultedTime ((request.lookup (lit "total_time")).map (jsonObjectGetDouble env.json))) := by
  unfold requestFiling at h
  dsimp only at h
  split_ifs at h
  · cases h
  obtain ⟨named,hpage,h⟩ := bind_eq_ok_iff.mp h
  obtain ⟨module,-,h⟩ := bind_eq_ok_iff.mp h
  obtain ⟨dated,hminute,-⟩ := bind_eq_ok_iff.mp h
  refine bind_eq_ok_iff.mpr ⟨named,hpage,bind_eq_ok_iff.mpr ⟨dated,hminute,?_⟩⟩
  change Except.ok (processorSetupTime env.json dated.2 (lit "total_time") none).1 = _
  rw [processorSetupTime_fst,lookup_before_time hpage hminute (by decide)]

/-! The exporter. -/

/-- The texts do not matter. -/
lemma processLogMessage_value (h : processLogMessage go c request = .metric props value) :
    go.parseFloat (extractString go request (lit "total_time") (lit "0")) = some (value*1000) := by
  unfold processLogMessage at h
  by_cases hflag : extractBool request (lit "logjam_ignore_message") = true
  · rw [if_pos hflag] at h
    cases h
  rw [if_neg hflag] at h
  dsimp only at h
  by_cases hurl : (extractMap request (lit "request_info")).any (ignoredByUrl go c) = true
  · rw [if_pos hurl] at h
    cases h
  rw [if_neg hurl] at h
  cases hparse : go.parseFloat (extractString go request (lit "total_time") (lit "0")) with
  | none =>
    rw [hparse] at h
    cases h
  | some parsed =>
    rw [hparse] at h
    obtain ⟨-,rfl⟩ := Processed.metric.inj h
    rw [div_mul_cancel₀ parsed (by norm_num)]

lemma exists_processLogMessage (go : GoLib) (c : Collector) {request : JObject} {value : ℚ}
    (hflag : extractBool request (lit "logjam_ignore_message") = false) (hinfo : request.lookup (lit "request_info") = none)
    (hparse : go.parseFloat (extractString go request (lit "total_time") (lit "0")) = some value) :
    ∃ props,processLogMessage go c request = .metric props (value/1000) := by
  unfold processLogMessage extractMap
  rw [hinfo,hflag,hparse]
  exact ⟨_,rfl⟩

lemma truncated_intCast (n : ℤ) : truncated n = n := by simp [truncated]

/-- A number survives if it is one of the ints. -/
lemma GoLib.Numbers.parse_itoa_iff (hgo : go.Numbers) (x : ℚ) :
    go.parseFloat (go.itoa x) = some x ↔ ∃ n : ℤ,IsInt64 n ∧ x = n := by
  obtain ⟨n,hn,hitoa,htruncated⟩ := hgo.itoa x
  rw [hitoa,hgo.parseFloat n hn,Option.some.injEq]
  constructor
  · intro hx
    exact ⟨n,hn,hx.symm⟩
  · rintro ⟨m,hm,rfl⟩
    rw [truncated_intCast] at htruncated
    rw [htruncated hm]

lemma GoLib.Numbers.parse_zero (hgo : go.Numbers) : go.parseFloat (lit "0") = some 0 := by
  have hzero := hgo.parseFloat 0 (by decide)
  rwa [Int.cast_zero] at hzero

/-- The two times of a request agree if it has a total time which is an int other than zero. -/
theorem observed_eq_used_iff (hgo : go.Numbers) (hfiled : requestFiling env info request = .ok (some f))
    (hmetric : processLogMessage go c request = .metric props value)
    (hnumber : ∀ v,request.lookup (lit "total_time") = some v → (numberOf v).isSome) :
    ∃ used,usedTotalTime env.json request = .ok used ∧
      (value*1000 = used ↔
        ∃ n : ℤ,IsInt64 n ∧ n ≠ 0 ∧ (request.lookup (lit "total_time")).bind numberOf = some (n : ℚ)) := by
  refine ⟨_,usedTotalTime_of_requestFiling hfiled,?_⟩
  have hvalue := processLogMessage_value hmetric
  unfold extractString at hvalue
  cases hlookup : request.lookup (lit "total_time") with
  | none =>
    rw [hlookup] at hvalue
    dsimp only at hvalue
    rw [hgo.parse_zero,Option.some.injEq] at hvalue
    rw [← hvalue]
    exact iff_of_false (by simp [defaultedTime]) (by simp)
  | some v =>
    obtain ⟨x,hx⟩ := Option.isSome_iff_exists.mp (hnumber v hlookup)
    have hget : jsonObjectGetDouble env.json v = x ∧ go.parseFloat (go.itoa x) = some (value*1000) := by
      rw [hlookup] at hvalue
      cases v <;> cases hx <;> exact ⟨rfl,hvalue⟩
    rw [Option.map_some,hget.1,Option.bind_some,hx]
    simp only [Option.some.injEq]
    by_cases hzero : x = 0
    · subst hzero
      have hparse := (hgo.parse_itoa_iff 0).mpr ⟨0,by decide,by simp⟩
      rw [hget.2,Option.some.injEq] at hparse
      rw [hparse]
      refine iff_of_false (by simp [defaultedTime]) fun ⟨n,_,hne,hn⟩ => hne ?_
      exact_mod_cast hn.symm
    · have hused : defaultedTime (some x) = x := if_neg hzero
      rw [hused,← Option.some.injEq,← hget.2,hgo.parse_itoa_iff x]
      refine exists_congr fun n => and_congr_right fun _ => (and_iff_right_of_imp fun hn hzero' => hzero ?_).symm
      rw [hn,hzero',Int.cast_zero]

/-- Numbers that do not fit become the smallest one. -/
def sampleGo : GoLib where
  itoa x := decimalInt (if IsInt64 (truncated x) then truncated x else -2^63)
  toUpper := id
  parseFloat s := some (atoi s)
  parseUrl := some

lemma sampleGo_numbers : sampleGo.Numbers where
  itoa x := by
    refine ⟨_,?_,rfl,fun h => if_pos h⟩
    split_ifs with h
    · exact h
    · decide
  parseFloat n _ := congrArg (fun m : ℤ => some (m : ℚ)) (atoi_decimalInt n)

/-- A request with the given members in addition. -/
def dated (members : JObject) : JObject :=
  [(lit "action",.str (lit "Cart#show")),(lit "started_at",.str (lit "2026-01-31T09:15:30"))] ++ members

lemma exists_requestFiling_dated (members : JObject)
    (h : (requestFiling sampleEnv bareInfo (dated members)).toOption.join.isSome) :
    ∃ f,requestFiling sampleEnv bareInfo (dated members) = .ok (some f) := by
  cases hfiling : requestFiling sampleEnv bareInfo (dated members) with
  | error e =>
    rw [hfiling] at h
    cases h
  | ok filing =>
    rw [hfiling] at h
    obtain ⟨f,hf⟩ := Option.isSome_iff_exists.mp h
    exact ⟨f,congrArg Except.ok hf⟩

theorem observed_eq_used_sample :
    ∃ f props used,requestFiling sampleEnv bareInfo (dated [(lit "total_time",.int 12)]) = .ok (some f) ∧
      processLogMessage sampleGo (collectorFor []) (dated [(lit "total_time",.int 12)]) = .metric props (12/1000) ∧
      usedTotalTime sampleEnv.json (dated [(lit "total_time",.int 12)]) = .ok used ∧ (12 : ℚ)/1000*1000 = used := by
  obtain ⟨f,hfiled⟩ := exists_requestFiling_dated [(lit "total_time",.int 12)] (by decide +kernel)
  have hparse : sampleGo.parseFloat (extractString sampleGo (dated [(lit "total_time",.int 12)]) (lit "total_time")
      (lit "0")) = some 12 := by decide +kernel
  obtain ⟨props,hmetric⟩ := exists_processLogMessage sampleGo (collectorFor []) rfl rfl hparse
  obtain ⟨used,hused,hiff⟩ := observed_eq_used_iff sampleGo_numbers hfiled hmetric fun v hv => by
    obtain rfl := Option.some.inj hv
    rfl
  exact ⟨f,props,used,hfiled,hmetric,hused,hiff.mpr ⟨12,by decide,by decide,rfl⟩⟩

/-- A millisecond and a half, and no time at all. -/
theorem observed_truncated :
    (∃ f props,requestFiling sampleEnv bareInfo (dated [(lit "total_time",.double (3/2))]) = .ok (some f) ∧
      processLogMessage sampleGo (collectorFor []) (dated [(lit "total_time",.double (3/2))]) = .metric props (1/1000) ∧
      usedTotalTime sampleEnv.json (dated [(lit "total_time",.double (3/2))]) = .ok (3/2)) ∧
    ∃ f props,requestFiling sampleEnv bareInfo (dated []) = .ok (some f) ∧
      processLogMessage sampleGo (collectorFor []) (dated []) = .metric props (0/1000) ∧
      usedTotalTime sampleEnv.json (dated []) = .ok 1 := by
  have hhalf : sampleGo.parseFloat (extractString sampleGo (dated [(lit "total_time",.double (3/2))]) (lit "total_time")
      (lit "0")) = some 1 := by decide +kernel
  have hnone : sampleGo.parseFloat (extractString sampleGo (dated []) (lit "total_time") (lit "0")) = some 0 := by
    decide +kernel
  obtain ⟨f,hf⟩ := exists_requestFiling_dated [(lit "total_time",.double (3/2))] (by decide +kernel)
  obtain ⟨g,hg⟩ := exists_requestFiling_dated [] (by decide +kernel)
  obtain ⟨props,hprops⟩ := exists_processLogMessage sampleGo (collectorFor []) rfl rfl hhalf
  obtain ⟨others,hothers⟩ := exists_processLogMessage sampleGo (collectorFor []) rfl rfl hnone
  refine ⟨⟨f,props,hf,hprops,?_⟩,g,others,hg,hothers,?_⟩
  · rw [usedTotalTime_of_requestFiling hf]
    decide +kernel
  · rw [usedTotalTime_of_requestFiling hg]
    decide +kernel

end Logjam.Exporter
