import Logjam.LiveStream.Publish
import Logjam.LiveStream.Server

/-! Which messages of the importer the live stream server takes for totals and which for errors.
It searches the text of the message. -/
namespace Logjam.LiveStream
open Library
open Logjam.Importer (ZHash Increments Resources sampleResources)

/-- The word the server searches for. -/
def totalTime : Bytes := lit "total_time"

/-- The message enters the ring of metrics and not the ring of errors. -/
def FiledAsTotals (json : GoJson) (ai : AppInfo) (message : List Bytes) : Prop :=
  ∃ msg, zmqMsgHandler message = some msg ∧ (ai.file json msg).1.metrics = ai.metrics.add msg.data ∧
    (ai.file json msg).1.errors = ai.errors

/-- The message enters the ring of errors and no statistics. -/
def FiledAsError (json : GoJson) (ai : AppInfo) (message : List Bytes) : Prop :=
  ∃ msg, zmqMsgHandler message = some msg ∧
    (ai.file json msg).1 = { ai with errors := ai.errors.add msg.data }

lemma isSome_strstr_iff (s needle : Bytes) : (strstr s needle).isSome ↔ needle <:+: s := by
  induction s with
  | nil =>
    rw [strstr,List.infix_nil]
    split_ifs with h <;> simp [h]
  | cons c s ih =>
    rw [strstr,List.infix_cons_iff,← ih]
    split_ifs with h
    · simp [List.isPrefixOf_iff_prefix.mp h]
    · have hnot : ¬needle <+: c::s := fun hstart => h (List.isPrefixOf_iff_prefix.mpr hstart)
      simp [hnot]

lemma Ring.add_ne {α : Type} (b : Ring α) (val : α) : b.add val ≠ b := by
  intro h
  have hlast : (((b.last+1).tmod bufSize).toNat : ℤ) = b.last := congrArg Ring.last h
  have hlow := b.low
  rw [Int.tmod_eq_emod_of_nonneg (by omega)] at hlast
  unfold bufSize at hlast
  omega

variable (json : GoJson) (ai : AppInfo) {key data : Bytes}

lemma zmqMsgHandler_of_contains (h : totalTime <:+: data) :
    zmqMsgHandler [key,data] = some ⟨.perfMsg,key,data⟩ := by
  have hsome : (strstr data (lit "total_time")).isSome := (isSome_strstr_iff data totalTime).mpr h
  rw [zmqMsgHandler,if_pos hsome]

lemma zmqMsgHandler_of_not_contains (h : ¬totalTime <:+: data) :
    zmqMsgHandler [key,data] = some ⟨.errorMsg,key,data⟩ := by
  have hnone : ¬(strstr data (lit "total_time")).isSome := fun hsome => h ((isSome_strstr_iff data totalTime).mp hsome)
  rw [zmqMsgHandler,if_neg hnone]

lemma file_perfMsg (key data : Bytes) : (ai.file json ⟨.perfMsg,key,data⟩).1.metrics = ai.metrics.add data ∧
    (ai.file json ⟨.perfMsg,key,data⟩).1.errors = ai.errors := by
  unfold AppInfo.file
  cases json.extractTotalTime data with
  | none => exact ⟨rfl,rfl⟩
  | some time =>
    simp only [addTotalTime]
    split <;> exact ⟨rfl,rfl⟩

lemma filedAsTotals_iff : FiledAsTotals json ai [key,data] ↔ totalTime <:+: data := by
  constructor
  · rintro ⟨msg,hmsg,hmetrics,-⟩
    by_contra h
    rw [zmqMsgHandler_of_not_contains h] at hmsg
    obtain rfl := Option.some.inj hmsg
    exact Ring.add_ne ai.metrics data hmetrics.symm
  · exact fun h => ⟨_,zmqMsgHandler_of_contains h,file_perfMsg json ai key data⟩

lemma filedAsError_iff : FiledAsError json ai [key,data] ↔ ¬totalTime <:+: data := by
  constructor
  · rintro ⟨msg,hmsg,hfile⟩ h
    rw [zmqMsgHandler_of_contains h] at hmsg
    obtain rfl := Option.some.inj hmsg
    have herrors := (file_perfMsg json ai key data).2
    rw [hfile] at herrors
    exact Ring.add_ne ai.errors data herrors
  · exact fun h => ⟨_,zmqMsgHandler_of_not_contains h,rfl⟩

/-! The texts. -/

lemma infix_published_iff (number : NumberText) (v : Json) :
    totalTime <:+: cstr (jsonText number v) ↔ Mentions totalTime v := by
  rw [cstr_of_notMem (zero_notMem_jsonText number v)]
  exact infix_jsonText_iff (by decide +kernel) (by decide) number v

lemma mentionsMember_iff {word : Bytes} {members : JObject} : MentionsMember word members ↔
    ∃ m ∈ members, word <:+: jsonEscapeStr (cstr m.1) ∨ Mentions word m.2 := by
  induction members with
  | nil => simp [MentionsMember]
  | cons m members ih =>
    simp only [MentionsMember,ih,List.exists_mem_cons_iff,or_assoc]

/-! Totals. -/

/-- Only the member names of the object can contain the word. -/
def Numeric (word : Bytes) (members : JObject) : Prop := ∀ m ∈ members, ¬Mentions word m.2

lemma Numeric.mentionsMember_iff {word : Bytes} {members : JObject} (h : Numeric word members) :
    MentionsMember word members ↔ ∃ k ∈ members.map Prod.fst, word <:+: jsonEscapeStr (cstr k) := by
  simp only [LiveStream.mentionsMember_iff,List.mem_map,exists_exists_and_eq_and]
  exact exists_congr fun m => and_congr_right fun hm => or_iff_left (h m hm)

lemma mem_add {members : JObject} {key : Bytes} {v : Json} {m : Bytes × Json} (h : m ∈ members.add key v) :
    m = (key,v) ∨ m ∈ members := by
  induction members with
  | nil => exact .inl (List.mem_singleton.mp h)
  | cons x members ih =>
    rw [JObject.add] at h
    split_ifs at h with hx
    · exact (List.mem_cons.mp h).imp id (List.mem_cons_of_mem x)
    · rcases List.mem_cons.mp h with rfl | h
      · exact .inr List.mem_cons_self
      · exact (ih h).imp id (List.mem_cons_of_mem x)

lemma mem_keys_add {members : JObject} {key k : Bytes} {v : Json} :
    k ∈ (members.add key v).map Prod.fst ↔ k = key ∨ k ∈ members.map Prod.fst := by
  induction members with
  | nil => simp [JObject.add]
  | cons x members ih =>
    rw [JObject.add]
    split_ifs with hx
    · simp [hx]
    · rw [List.map_cons,List.mem_cons,ih,List.map_cons,List.mem_cons,or_left_comm]

lemma Numeric.add {word key : Bytes} {members : JObject} {v : Json} (h : Numeric word members) (hv : ¬Mentions word v) :
    Numeric word (members.add key v) := by
  intro m hm
  rcases mem_add hm with rfl | hm
  · exact hv
  · exact h m hm

variable {n : ℕ} (res : Resources n)

lemma numeric_addMetrics {word : Bytes} (incs : Increments n) {members : JObject} (h : Numeric word members) :
    Numeric word (incrementsAddMetricsToJson res incs members) := by
  unfold incrementsAddMetricsToJson
  generalize List.finRange n = l
  induction l generalizing members with
  | nil => exact h
  | cons i l ih =>
    rw [List.foldl_cons]
    split_ifs with hval
    · exact ih (h.add id)
    · exact ih h

lemma mem_keys_addMetrics (incs : Increments n) {members : JObject} {k : Bytes} :
    k ∈ (incrementsAddMetricsToJson res incs members).map Prod.fst ↔
      k ∈ members.map Prod.fst ∨ ∃ i, 0 < (incs.metrics i).val ∧ res.intToResource i = k := by
  have hloop : ∀ (l : List (Fin n)) (members : JObject),
      k ∈ (l.foldl (fun jobj i => if 0 < (incs.metrics i).val then
        jobj.add (res.intToResource i) (.double (incs.metrics i).val) else jobj) members).map Prod.fst ↔
        k ∈ members.map Prod.fst ∨ ∃ i ∈ l, 0 < (incs.metrics i).val ∧ res.intToResource i = k := by
    intro l
    induction l with
    | nil => simp
    | cons i l ih =>
      intro members
      rw [List.foldl_cons,ih,List.exists_mem_cons_iff,← or_assoc]
      refine or_congr_left ?_
      split_ifs with hval
      · rw [mem_keys_add,or_comm,eq_comm]
        simp [hval]
      · simp [hval]
  rw [incrementsAddMetricsToJson,hloop]
  simp

lemma numeric_counts {word : Bytes} (a b c : ℕ) : Numeric word (countsJson a b c) := by
  have hnil : Numeric word [] := fun m hm => absurd hm List.not_mem_nil
  exact ((hnil.add id).add id).add id

lemma not_contains_counts {a b c : ℕ} {k : Bytes} (hk : k ∈ (countsJson a b c).map Prod.fst) :
    ¬totalTime <:+: jsonEscapeStr (cstr k) := by
  rw [countsJson,mem_keys_add,mem_keys_add,mem_keys_add,List.map_nil] at hk
  rcases hk with rfl | rfl | rfl | hk
  · decide +kernel
  · decide +kernel
  · decide +kernel
  · exact absurd hk List.not_mem_nil

/-- The text of the totals contains the word just if a metric with such a name is above zero. -/
lemma mentions_totalsJson_iff (incs : Option (Increments n)) :
    Mentions totalTime (.obj (totalsJson res incs)) ↔ ∃ totals, incs = some totals ∧
      ∃ i, 0 < (totals.metrics i).val ∧ totalTime <:+: jsonEscapeStr (cstr (res.intToResource i)) := by
  rw [Mentions]
  cases incs with
  | none =>
    refine iff_of_false (fun h => ?_) (by simp)
    obtain ⟨k,hk,hcontains⟩ := (numeric_counts 0 0 0).mentionsMember_iff.mp h
    exact not_contains_counts hk hcontains
  | some totals =>
    rw [totalsJson,(numeric_addMetrics res totals (numeric_counts _ _ _)).mentionsMember_iff]
    simp only [mem_keys_addMetrics,Option.some.injEq,exists_eq_left']
    constructor
    · rintro ⟨k,hk | ⟨i,hval,rfl⟩,hcontains⟩
      · exact absurd hcontains (not_contains_counts hk)
      · exact ⟨i,hval,hcontains⟩
    · rintro ⟨i,hval,hcontains⟩
      exact ⟨_,.inr ⟨i,hval,rfl⟩,hcontains⟩

/-! Errors. -/

/-- Nothing of what the request writer puts into the message contains the word. -/
structure Silent (lib : JsonLib) (request : JObject) (requestId : Json) : Prop where
  requestId : ¬Mentions totalTime requestId
  fields : ∀ key ∈ [lit "severity",lit "page",lit "response_code",lit "started_at"],
    ∀ v, request.lookup key = some v → ¬Mentions totalTime v
  description : ∀ severity, request.lookup (lit "severity") = some severity →
    ∀ d, extractErrorDescription lib request (jsonObjectGetInt lib severity) = .ok d → ¬Mentions totalTime d

lemma errorInfo_eq_ok {lib : JsonLib} {request : JObject} {requestId severity : Json} {info : JObject}
    (h : errorInfo lib request requestId severity = .ok info) : ∃ action rsp startedAt description,
      request.lookup (lit "page") = some action ∧ request.lookup (lit "response_code") = some rsp ∧
      request.lookup (lit "started_at") = some startedAt ∧
      extractErrorDescription lib request (jsonObjectGetInt lib severity) = .ok description ∧
      info = [(lit "request_id",requestId),(lit "severity",severity),(lit "action",action),
        (lit "response_code",rsp),(lit "time",startedAt),(lit "description",description)] := by
  unfold errorInfo requiredMember at h
  cases haction : request.lookup (lit "page") with
  | none => rw [haction] at h; cases h
  | some action =>
  cases hrsp : request.lookup (lit "response_code") with
  | none => rw [haction,hrsp] at h; cases h
  | some rsp =>
  cases hstarted : request.lookup (lit "started_at") with
  | none => rw [haction,hrsp,hstarted] at h; cases h
  | some startedAt =>
  cases hdescription : extractErrorDescription lib request (jsonObjectGetInt lib severity) with
  | error e => rw [haction,hrsp,hstarted,hdescription] at h; cases h
  | ok description =>
    rw [haction,hrsp,hstarted,hdescription] at h
    exact ⟨action,rsp,startedAt,description,rfl,rfl,rfl,rfl,(Except.ok.inj h).symm⟩

lemma not_contains_errorKeys : ∀ k ∈ [lit "request_id",lit "severity",lit "action",lit "response_code",lit "time",
    lit "description"], ¬totalTime <:+: jsonEscapeStr (cstr k) := by
  decide +kernel

lemma mentions_errorInfo_iff {lib : JsonLib} {request : JObject} {requestId severity : Json} {info : JObject}
    (hseverity : request.lookup (lit "severity") = some severity)
    (h : errorInfo lib request requestId severity = .ok info) :
    ¬Mentions totalTime (.arr [.obj info]) ↔ Silent lib request requestId := by
  obtain ⟨action,rsp,startedAt,description,haction,hrsp,hstarted,hdescription,rfl⟩ := errorInfo_eq_ok h
  have hkey := not_contains_errorKeys
  simp only [List.forall_mem_cons] at hkey
  obtain ⟨hrequestKey,hseverityKey,hactionKey,hrspKey,htimeKey,hdescriptionKey,-⟩ := hkey
  simp only [Mentions,MentionsElement,MentionsMember,hrequestKey,hseverityKey,hactionKey,hrspKey,htimeKey,
    hdescriptionKey,false_or,or_false,not_or]
  constructor
  · rintro ⟨hid,hsev,hact,hresponse,htime,hdesc⟩
    refine ⟨hid,fun key hkey v hv => ?_,fun sev hsev' d hd => ?_⟩
    · simp only [List.mem_cons,List.not_mem_nil,or_false] at hkey
      rcases hkey with rfl | rfl | rfl | rfl
      · exact Option.some.inj (hseverity.symm.trans hv) ▸ hsev
      · exact Option.some.inj (haction.symm.trans hv) ▸ hact
      · exact Option.some.inj (hrsp.symm.trans hv) ▸ hresponse
      · exact Option.some.inj (hstarted.symm.trans hv) ▸ htime
    · obtain rfl := Option.some.inj (hseverity.symm.trans hsev')
      exact Except.ok.inj (hdescription.symm.trans hd) ▸ hdesc
  · intro hsilent
    exact ⟨hsilent.requestId,hsilent.fields _ (by simp) _ hseverity,hsilent.fields _ (by simp) _ haction,
      hsilent.fields _ (by simp) _ hrsp,hsilent.fields _ (by simp) _ hstarted,
      hsilent.description _ hseverity _ hdescription⟩

/-- The request writer publishes one text under two keys, or nothing. -/
lemma requestWriterPublishError_cases {lib : JsonLib} {number : NumberText} {app env module : Bytes} {request : JObject}
    {requestId : Option Json} {messages : List (List Bytes)}
    (h : requestWriterPublishError lib number app env module request requestId = .ok messages) :
    messages = [] ∨ ∃ rid severity info, requestId = some rid ∧ request.lookup (lit "severity") = some severity ∧
      errorInfo lib request rid severity = .ok info ∧
      messages = [[liveStreamKey app env (lit "all_pages"),cstr (jsonText number (.arr [.obj info]))],
        [liveStreamKey app env module,cstr (jsonText number (.arr [.obj info]))]] := by
  cases requestId with
  | none => exact .inl (Except.ok.inj h).symm
  | some rid =>
    unfold requestWriterPublishError at h
    cases hseverity : request.lookup (lit "severity") with
    | none =>
      rw [hseverity] at h
      exact .inl (Except.ok.inj h).symm
    | some severity =>
      rw [hseverity] at h
      dsimp only at h
      split_ifs at h
      · cases hinfo : errorInfo lib request rid severity with
        | error e => rw [hinfo] at h; cases h
        | ok info =>
          rw [hinfo] at h
          exact .inr ⟨rid,severity,info,rfl,rfl,hinfo,(Except.ok.inj h).symm⟩
      · exact .inl (Except.ok.inj h).symm

/-- The totals of a module are filed as such just if a metric whose name contains the word is above
zero; an error is filed as such just if nothing in it contains the word. -/
theorem filedByKind_iff (lib : JsonLib) (number : NumberText) (json : GoJson) (ai : AppInfo) (app env : Bytes) :
    (∀ knownModules totals, (∀ message ∈ publishTotals number res app env knownModules totals,
        FiledAsTotals json ai message) ↔
      ∀ module ∈ knownModules, ∃ incs, (totals.bind fun t => t[module]?) = some incs ∧
        ∃ i, 0 < (incs.metrics i).val ∧ totalTime <:+: jsonEscapeStr (cstr (res.intToResource i))) ∧
    ∀ module request requestId messages,
      requestWriterPublishError lib number app env module request requestId = .ok messages → messages ≠ [] →
      ((∀ message ∈ messages, FiledAsError json ai message) ↔ ∀ rid, requestId = some rid → Silent lib request rid) := by
  constructor
  · intro knownModules totals
    rw [publishTotals,List.forall_mem_map]
    refine forall_congr' fun module => forall_congr' fun _ => ?_
    rw [liveStreamPublish,filedAsTotals_iff,infix_published_iff,mentions_totalsJson_iff]
  · intro module request requestId messages hpublish hne
    rcases requestWriterPublishError_cases hpublish with h | ⟨rid,severity,info,rfl,hseverity,hinfo,rfl⟩
    · exact absurd h hne
    · simp only [List.forall_mem_cons,filedAsError_iff,infix_published_iff,mentions_errorInfo_iff hseverity hinfo,
        List.not_mem_nil,false_imp_iff,implies_true,and_true,and_self,Option.some.injEq,forall_eq']

/-- A printer of doubles, for examples. -/
def sampleNumber : NumberText := ⟨fun _ => lit "0.5",fun _ => by decide +kernel⟩

/-- A failed request whose error message mentions the metric. -/
def sampleErrorRequest : JObject :=
  [(lit "severity",.int 3),(lit "page",.str (lit "Cart#show")),(lit "response_code",.int 500),
    (lit "started_at",.str (lit "2020-03-16T11:57:41")),
    (lit "lines",.arr [.arr [.int 3,.str (lit "11:57:42"),.str (lit "no total_time")]])]

def sampleGoJson : GoJson := ⟨fun _ => none,fun _ _ => none⟩

/-- A stream without requests has totals without a metric, and the text of an error can contain
the word. -/
theorem misfiled :
    (∃ message ∈ publishTotals sampleNumber sampleResources (lit "app") (lit "prod") [lit "all_pages"] none,
      ¬FiledAsTotals sampleGoJson AppInfo.new message) ∧
    ∃ messages, requestWriterPublishError JsonLib.blank sampleNumber (lit "app") (lit "prod") (lit "::Shop")
        sampleErrorRequest (some (.str (lit "0123456789abcdef0123456789abcdef"))) = .ok messages ∧
      ∃ message ∈ messages, ¬FiledAsError sampleGoJson AppInfo.new message := by
  constructor
  · refine ⟨_,List.mem_map_of_mem (List.mem_singleton.mpr rfl),?_⟩
    rw [liveStreamPublish,filedAsTotals_iff,infix_published_iff,mentions_totalsJson_iff]
    simp
  · refine ⟨_,rfl,_,List.mem_cons_self,?_⟩
    rw [publishErrorForModule,liveStreamPublish,filedAsError_iff,not_not]
    decide +kernel

end Logjam.LiveStream
