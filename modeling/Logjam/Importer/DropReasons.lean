import Logjam.Exporter.FrontendMetrics
import Logjam.Importer.Filing
import Logjam.Importer.PageTimings

/-! Why frontend messages are dropped. The two handlers make the same checks in the same order: the
timings must be readable, the request known, the timings in order and the total time not too long. -/
namespace Logjam.Importer
open Logjam.Library Logjam.Library.MergeMap
open Logjam.Exporter (fields Digits digitsFrom baseOf relative InOrder scanTimings_eq_some_iff timingsOf addMetrics
  lookup_addMetrics convert_reason convert_request)

variable {n : ℕ}

inductive FrontendKind
  | page
  | ajax
  deriving DecidableEq

def FrontendKind.clock : FrontendKind → Clock
  | .page => .page
  | .ajax => .ajax

def FrontendKind.numTimings : FrontendKind → ℕ
  | .page => 16
  | .ajax => 2

def processorAddFrontend (env : Env n) (self : Processor n) (request : JObject) (tracked : Bool) :
    FrontendKind → Except Fault (FeMsgDropReason × Processor n)
  | .page => processorAddFrontendData env self request tracked
  | .ajax => processorAddAjaxData env self request tracked

/-! The meaning of the reasons. -/

/-- Exactly so many fields of digits, as numbers of any size. -/
def readNumbers (count : ℕ) (s : Bytes) : Option (List ℤ) :=
  if (fields s).length = count ∧ ∀ field ∈ fields s,Digits field then
    some ((fields s).map fun field => (digitsFrom 0 field : ℤ))
  else none

/-- The same with the numbers the code makes of the fields: it reads them modulo 2^64. -/
def readTimings (count : ℕ) (s : Bytes) : Option (List ℤ) :=
  if (fields s).length = count ∧ ∀ field ∈ fields s,Digits field then
    some ((fields s).map fun field => toInt64 (digitsFrom 0 field))
  else none

def rtsNumbers (lib : JsonLib) (kind : FrontendKind) (request : JObject) : Option (List ℤ) :=
  ((request.lookup (lit "rts")).bind (jsonObjectGetString lib)).bind (readNumbers kind.numTimings)

def rtsTimings (lib : JsonLib) (kind : FrontendKind) (request : JObject) : Option (List ℤ) :=
  ((request.lookup (lit "rts")).bind (jsonObjectGetString lib)).bind (readTimings kind.numTimings)

def requestId (lib : JsonLib) (request : JObject) : Option Bytes :=
  ((request.lookup (lit "logjam_request_id")).or (request.lookup (lit "request_id"))).bind (jsonObjectGetString lib)

/-- Browsers without the navigation timing API send zeros. -/
def FrontendKind.unsupported (timings : List ℤ) : FrontendKind → Bool
  | .page => timings.all (· == 0)
  | .ajax => false

/-- From the start to the end of the loading or of the call. -/
def FrontendKind.duration (numbers : List ℤ) : FrontendKind → ℤ
  | .page => numbers.getD loadEventEnd 0-baseOf numbers
  | .ajax => numbers.getD 1 0-numbers.getD 0 0

-- The code compares six of the sixteen timings of a page, and computes with 64 bits.
def FrontendKind.inOrder (timings : List ℤ) : FrontendKind → Bool
  | .page => decide (baseOf timings ≠ 0 ∧ InOrder timings)
  | .ajax => decide (0 ≤ toInt64 (timings.getD 1 0-timings.getD 0 0))

def FrontendKind.time (timings : List ℤ) : FrontendKind → ℤ
  | .page => relative timings loadEventEnd
  | .ajax => toInt64 (timings.getD 1 0-timings.getD 0 0)

/-- The reasons in the order in which they are considered. -/
def reasonFor (known : Bool) (unsupported inOrder long : List ℤ → Bool) : Option (List ℤ) → FeMsgDropReason
  | none => .corrupted
  | some timings =>
    if !known then .illegal
    else if unsupported timings then .navTiming
    else if !inOrder timings then .invalid
    else if long timings then .outlier
    else .accepted

/-- There is a request id, and the tracker knows the backend request. -/
def knownRequest (lib : JsonLib) (request : JObject) (tracked : Bool) : Bool := (requestId lib request).isSome && tracked

/-- The reason, as the comments on the reasons have it: the numbers are in order if none is less than the one before. -/
def documentedReason (lib : JsonLib) (kind : FrontendKind) (request : JObject) (tracked : Bool) : FeMsgDropReason :=
  reasonFor (knownRequest lib request tracked) kind.unsupported (fun numbers => decide (numbers.Pairwise (· ≤ ·)))
    (fun numbers => decide (kind.duration numbers > 60000)) (rtsNumbers lib kind request)

/-- The reason by what the code makes of the timings. -/
def checkedReason (lib : JsonLib) (kind : FrontendKind) (request : JObject) (tracked : Bool) : FeMsgDropReason :=
  reasonFor (knownRequest lib request tracked) kind.unsupported kind.inOrder
    (fun timings => decide (kind.time timings > 60000)) (rtsTimings lib kind request)

/-- What the code makes of the numbers agrees with them: they are all zero, in order and of a minute at
most by its tests just if they are. -/
structure FrontendKind.Conforms (kind : FrontendKind) (numbers : List ℤ) : Prop where
  zeros : kind.unsupported (numbers.map toInt64) = kind.unsupported numbers
  order : kind.unsupported numbers = false →
    (kind.inOrder (numbers.map toInt64) = true ↔ numbers.Pairwise (· ≤ ·))
  time : kind.unsupported numbers = false → numbers.Pairwise (· ≤ ·) →
    (kind.time (numbers.map toInt64) > 60000 ↔ kind.duration numbers > 60000)

/-! The handlers. -/

/-- What the handlers answer for an unknown request. -/
def FrontendKind.untracked : FrontendKind → FeMsgDropReason
  | .page => .invalid
  | .ajax => .illegal

/-- The message with its times, and the increments it will be filed with, unless the timings are
rejected. -/
def FrontendKind.prepare (env : Env n) (request : JObject) (timings : List ℤ) :
    FrontendKind → FeMsgDropReason × JObject × (JObject → ℚ → Increments n)
  | .page =>
    let converted := convertFrontendTimingsToJson request timings
    (converted.1,converted.2.2,fun request time => pageIncrements env request time converted.2.1)
  | .ajax =>
    let ajaxTime := toInt64 (timings.getD 1 0-timings.getD 0 0)
    (if ajaxTime < 0 then .invalid else .accepted,request.add (lit "ajax_time") (.int ajaxTime),ajaxIncrements env)

/-- The page a message is about, and its module. -/
def pageName (lib : JsonLib) (request : JObject) : Except Fault Bytes := do
  let action := (request.lookup (lit "action")).or (request.lookup (lit "logjam_action"))
  let page ← jsonString lib (action.getD (.str (lit "Unknown#unknown_method")))
  return (completePage page).getD page

def moduleName (lib : JsonLib) (request : JObject) : Except Fault Bytes := do moduleStr (← pageName lib request)

/-- The ways in which a handler gets to its reason, and what it has done to the processor by then. -/
inductive Outcome (env : Env n) (self : Processor n) (request : JObject) (tracked : Bool) (kind : FrontendKind) :
    FeMsgDropReason → Processor n → Prop
  | corrupted (hread : rtsTimings env.json kind request = none) :
      Outcome env self request tracked kind .corrupted self
  | untracked {timings} (hread : rtsTimings env.json kind request = some timings)
      (hvalid : checkFrontendRequestValidity env.json request tracked = false) :
      Outcome env self request tracked kind kind.untracked self
  | rejected {timings} (hread : rtsTimings env.json kind request = some timings)
      (hvalid : checkFrontendRequestValidity env.json request tracked = true)
      (hreason : (kind.prepare env request timings).1 ≠ .accepted) :
      Outcome env self request tracked kind (kind.prepare env request timings).1 self
  | outlier {timings module} (hread : rtsTimings env.json kind request = some timings)
      (hvalid : checkFrontendRequestValidity env.json request tracked = true)
      (hreason : (kind.prepare env request timings).1 = .accepted)
      (hmodule : moduleName env.json request = .ok module) (htime : kind.time timings > 60000) :
      Outcome env self request tracked kind .outlier (addModule self module)
  | accepted {timings page module minute incs next} (hread : rtsTimings env.json kind request = some timings)
      (hvalid : checkFrontendRequestValidity env.json request tracked = true)
      (hreason : (kind.prepare env request timings).1 = .accepted)
      (hmodule : moduleName env.json request = .ok module) (htime : ¬kind.time timings > 60000)
      (hadd : addAggregates env (addModule self module) page module minute kind.clock.resource
        (kind.clock.index env.res) incs = .ok next) :
      Outcome env self request tracked kind .accepted next

/-! Reading. -/

lemma scanTimings_eq {count : ℕ} (hcount : 0 < count) (s : Bytes) : scanTimings count s [] 0 = readTimings count s := by
  obtain ⟨field,rest,hfields⟩ := List.exists_cons_of_ne_nil (List.splitOnP_ne_nil (· == 44) s)
  have hfields : fields s = field::rest := hfields
  ext result
  change scanTimings count s [] (toInt64 (0 : ℕ)) = some result ↔ _
  rw [scanTimings_eq_some_iff hcount hfields,readTimings,hfields,List.length_cons,Option.ite_none_right_eq_some,
    Option.some.injEq,and_assoc,List.length_nil,Nat.zero_add,Nat.add_comm 1,List.map_cons,List.nil_append]
  exact and_congr_right fun _ => and_congr_right fun _ => eq_comm

lemma extractFrontendTimings_eq {lib : JsonLib} {kind : FrontendKind} {request : JObject} {result : Option (List ℤ)}
    (h : extractFrontendTimings lib request kind.numTimings = .ok result) :
    rtsTimings lib kind request = result := by
  have hcount : 0 < kind.numTimings := by cases kind <;> decide
  unfold extractFrontendTimings at h
  unfold rtsTimings
  cases hrts : request.lookup (lit "rts") with
  | none =>
    rw [hrts] at h
    exact Except.ok.inj h
  | some v =>
    rw [hrts] at h
    cases htext : jsonObjectGetString lib v with
    | none => simp [jsonString,htext,bind,Except.bind] at h
    | some s =>
      simp only [jsonString,htext,bind,Except.bind,pure,Except.pure,Except.ok.injEq] at h
      rw [Option.bind_some,htext,Option.bind_some,← scanTimings_eq hcount]
      exact h

lemma rtsTimings_eq (lib : JsonLib) (kind : FrontendKind) (request : JObject) :
    rtsTimings lib kind request = (rtsNumbers lib kind request).map (·.map toInt64) := by
  have hread (s : Bytes) : readTimings kind.numTimings s = (readNumbers kind.numTimings s).map (·.map toInt64) := by
    unfold readTimings readNumbers
    split_ifs
    · rw [Option.map_some,List.map_map,Function.comp_def]
    · rfl
  rw [rtsTimings,rtsNumbers,Option.map_bind]
  exact congrArg _ (funext hread)

lemma checkFrontendRequestValidity_eq (lib : JsonLib) (request : JObject) (tracked : Bool) :
    checkFrontendRequestValidity lib request tracked = knownRequest lib request tracked := by
  unfold checkFrontendRequestValidity knownRequest requestId
  cases request.lookup (lit "logjam_request_id") with
  | some v => cases hid : jsonObjectGetString lib v <;> simp [hid]
  | none =>
    cases request.lookup (lit "request_id") with
    | some v => cases hid : jsonObjectGetString lib v <;> simp [hid]
    | none => rfl

/-! Filing. -/

/-- The action of a message, and the message without it. -/
def takeAction (request : JObject) : Json × JObject :=
  match request.lookup (lit "action"),request.lookup (lit "logjam_action") with
  | some v,_ => (v,request.del (lit "action"))
  | none,some v => (v,request.del (lit "logjam_action"))
  | none,none => (.str (lit "Unknown#unknown_method"),request)

lemma processorSetupPage_eq (lib : JsonLib) (request : JObject) : processorSetupPage lib request = do
    let page ← jsonString lib (takeAction request).1
    return ((completePage page).getD page,(takeAction request).2.add (lit "page")
      (((completePage page).map Json.str).getD (takeAction request).1)) := by
  unfold processorSetupPage takeAction
  cases request.lookup (lit "action") <;> cases request.lookup (lit "logjam_action") <;>
    refine bind_congr fun page => ?_ <;> cases completePage page <;> rfl

lemma takeAction_fst (request : JObject) : (takeAction request).1 =
    ((request.lookup (lit "action")).or (request.lookup (lit "logjam_action"))).getD
      (.str (lit "Unknown#unknown_method")) := by
  unfold takeAction
  cases request.lookup (lit "action") <;> cases request.lookup (lit "logjam_action") <;> rfl

lemma lookup_takeAction (request : JObject) {k : Bytes} (haction : k ≠ lit "action")
    (hlogjam : k ≠ lit "logjam_action") : (takeAction request).2.lookup k = request.lookup k := by
  unfold takeAction
  split
  · exact JObject.lookup_del (Ne.symm haction) request
  · exact JObject.lookup_del (Ne.symm hlogjam) request
  · rfl

lemma processorSetupPage_eq_ok {lib : JsonLib} {request : JObject} {r : Bytes × JObject}
    (h : processorSetupPage lib request = .ok r) : pageName lib request = .ok r.1 ∧
      ∀ k,k ≠ lit "action" → k ≠ lit "logjam_action" → k ≠ lit "page" → r.2.lookup k = request.lookup k := by
  rw [processorSetupPage_eq] at h
  obtain ⟨page,hpage,hr⟩ := bind_eq_ok_iff.mp h
  obtain rfl := Except.ok.inj hr
  constructor
  · rw [pageName,← takeAction_fst,hpage]
    rfl
  · intro k haction hlogjam hk
    rw [JObject.lookup_add,if_neg (Ne.symm hk),lookup_takeAction request haction hlogjam]

lemma processorSetupMinute_lookup {lib : JsonLib} {request : JObject} {r : ℤ × JObject}
    (h : processorSetupMinute lib request = .ok r) {k : Bytes} (hk : k ≠ lit "minute") :
    r.2.lookup k = request.lookup k := by
  unfold processorSetupMinute at h
  split at h
  · obtain rfl := Except.ok.inj h
    rw [JObject.lookup_add,if_neg (Ne.symm hk)]
  · obtain ⟨s,-,hs⟩ := bind_eq_ok_iff.mp h
    split_ifs at hs
    · cases hs
    · obtain rfl := Except.ok.inj hs
      rw [JObject.lookup_add,if_neg (Ne.symm hk)]

lemma processorSetupTime_gt {lib : JsonLib} {request : JObject} {name : Bytes} {duplicate : Option Bytes} {v : ℤ}
    (h : request.lookup name = some (.int v)) :
    (processorSetupTime lib request name duplicate).1 > feMsgOutlierThresholdMs ↔ v > 60000 := by
  have htime : (processorSetupTime lib request name duplicate).1 = if (v : ℚ) = 0 then 1 else (v : ℚ) := by
    unfold processorSetupTime
    rw [h]
    cases duplicate <;> by_cases hv : (v : ℚ) = 0 <;> simp [jsonObjectGetDouble,hv]
  rw [htime,feMsgOutlierThresholdMs]
  split_ifs with hv
  · have hzero : v = 0 := Int.cast_eq_zero.mp hv
    constructor
    · intro hgt
      norm_num at hgt
    · intro hgt
      omega
  · exact_mod_cast Iff.rfl

lemma lookup_foldl_add_of_notMem {members : List (Bytes × ℤ)} {k : Bytes} (h : ∀ m ∈ members,m.1 ≠ k)
    (request : JObject) : (members.foldl (fun r m => r.add m.1 (.int m.2)) request).lookup k = request.lookup k := by
  induction members generalizing request with
  | nil => rfl
  | cons m members ih =>
    rw [List.forall_mem_cons] at h
    rw [List.foldl_cons,ih h.2,JObject.lookup_add,if_neg h.1]

section
variable {env : Env n} {kind : FrontendKind} {request : JObject} {timings : List ℤ}

lemma prepare_lookup (h : (kind.prepare env request timings).1 = .accepted) :
    (kind.prepare env request timings).2.1.lookup kind.clock.resource = some (.int (kind.time timings)) := by
  cases kind with
  | page =>
    change (convertFrontendTimingsToJson request timings).2.2.lookup (lit "page_time") = _
    rw [convert_request h]
    exact lookup_addMetrics (timingsOf (relative timings))
      (m := (lit "page_time",relative timings loadEventEnd)) (by simp [Exporter.Timings.members,timingsOf])
  | ajax =>
    change (request.add (lit "ajax_time") (.int (toInt64 (timings.getD 1 0-timings.getD 0 0)))).lookup (lit "ajax_time") = _
    rw [JObject.lookup_add,if_pos rfl]
    rfl

/-- The times do not get in the way of what is read later. -/
lemma prepare_lookup_of_mem (h : (kind.prepare env request timings).1 = .accepted) {k : Bytes}
    (hk : k ∈ [lit "action",lit "logjam_action",lit "started_at"]) :
    (kind.prepare env request timings).2.1.lookup k = request.lookup k := by
  simp only [List.mem_cons,List.not_mem_nil,or_false] at hk
  cases kind with
  | page =>
    change (convertFrontendTimingsToJson request timings).2.2.lookup k = _
    rw [convert_request h]
    refine lookup_foldl_add_of_notMem ?_ request
    simp only [Exporter.Timings.members,List.forall_mem_cons]
    rcases hk with rfl | rfl | rfl <;> decide
  | ajax =>
    change (request.add (lit "ajax_time") _).lookup k = _
    rw [JObject.lookup_add,if_neg]
    rcases hk with rfl | rfl | rfl <;> decide

lemma pageName_prepare (h : (kind.prepare env request timings).1 = .accepted) :
    pageName env.json (kind.prepare env request timings).2.1 = pageName env.json request := by
  rw [pageName,pageName,prepare_lookup_of_mem h (by decide),prepare_lookup_of_mem h (by decide)]

end

/-- What both handlers do with a message whose timings have been read. -/
def fileFrontend (env : Env n) (self : Processor n) (agent : Option Bytes) (clock : Clock)
    (prepared : FeMsgDropReason × JObject × (JObject → ℚ → Increments n)) :
    Except Fault (FeMsgDropReason × Processor n) :=
  if prepared.1 ≠ .accepted then .ok (prepared.1,processorAddUserAgent self agent prepared.1)
  else do
    let paged ← processorSetupPage env.json prepared.2.1
    let entered ← processorSetupModule self paged.1
    let timed ← processorSetupMinute env.json paged.2
    let total := processorSetupTime env.json timed.2 clock.resource (some (lit "frontend_time"))
    if total.1 > feMsgOutlierThresholdMs then return (.outlier,processorAddUserAgent entered.2 agent .outlier)
    else
      let next ← addAggregates env entered.2 paged.1 entered.1 timed.1 clock.resource (clock.index env.res)
        (prepared.2.2 total.2 total.1)
      return (.accepted,processorAddUserAgent next agent .accepted)

def addFrontend (env : Env n) (self : Processor n) (request : JObject) (tracked : Bool) (kind : FrontendKind) :
    Except Fault (FeMsgDropReason × Processor n) := do
  let agent := extractUserAgentFromRequest env.json request
  match ← extractFrontendTimings env.json request kind.numTimings with
  | none => return (.corrupted,processorAddUserAgent self agent .corrupted)
  | some timings =>
    if !checkFrontendRequestValidity env.json request tracked then
      return (kind.untracked,processorAddUserAgent self agent kind.untracked)
    else fileFrontend env self agent kind.clock (kind.prepare env request timings)

lemma processorAddFrontend_eq (env : Env n) (self : Processor n) (request : JObject) (tracked : Bool)
    (kind : FrontendKind) :
    processorAddFrontend env self request tracked kind = addFrontend env self request tracked kind := by
  cases kind with
  | page => rfl
  | ajax =>
    refine bind_congr fun result => ?_
    cases result with
    | none => rfl
    | some timings =>
      refine if_congr Iff.rfl rfl ?_
      by_cases hnegative : toInt64 (timings.getD 1 0-timings.getD 0 0) < 0
      · have hreason : (FrontendKind.prepare env request timings .ajax).1 = .invalid := if_pos hnegative
        refine (if_pos hnegative).trans ?_
        rw [fileFrontend,hreason,if_pos (by decide)]
        rfl
      · have hreason : (FrontendKind.prepare env request timings .ajax).1 = .accepted := if_neg hnegative
        refine (if_neg hnegative).trans ?_
        rw [fileFrontend,hreason,if_neg (not_not.mpr rfl)]
        rfl

theorem processorAddFrontend_outcome {env : Env n} {self next : Processor n} {request : JObject} {tracked : Bool}
    {kind : FrontendKind} {reason : FeMsgDropReason}
    (h : processorAddFrontend env self request tracked kind = .ok (reason,next)) :
    ∃ updated,Outcome env self request tracked kind reason updated ∧
      next = processorAddUserAgent updated (extractUserAgentFromRequest env.json request) reason := by
  rw [processorAddFrontend_eq] at h
  obtain ⟨result,hresult,h⟩ := bind_eq_ok_iff.mp h
  have hread := extractFrontendTimings_eq hresult
  cases result with
  | none =>
    obtain ⟨rfl,rfl⟩ := Prod.mk.inj (Except.ok.inj h)
    exact ⟨self,.corrupted hread,rfl⟩
  | some timings =>
    cases hvalid : checkFrontendRequestValidity env.json request tracked with
    | false =>
      simp only [hvalid] at h
      obtain ⟨rfl,rfl⟩ := Prod.mk.inj (Except.ok.inj h)
      exact ⟨self,.untracked hread hvalid,rfl⟩
    | true =>
      simp only [hvalid,Bool.not_true,Bool.false_eq_true,if_false,fileFrontend] at h
      by_cases hreason : (kind.prepare env request timings).1 = .accepted
      · rw [if_neg (not_not.mpr hreason)] at h
        obtain ⟨⟨page,paged⟩,hpage,h⟩ := bind_eq_ok_iff.mp h
        obtain ⟨⟨module,entered⟩,hmodule,h⟩ := bind_eq_ok_iff.mp h
        obtain ⟨⟨minute,timed⟩,hminute,h⟩ := bind_eq_ok_iff.mp h
        obtain ⟨module,hstr,hentered⟩ := bind_eq_ok_iff.mp hmodule
        obtain ⟨rfl,rfl⟩ := Prod.mk.inj (Except.ok.inj hentered)
        obtain ⟨hname,hlookup⟩ := processorSetupPage_eq_ok hpage
        have hmodule : moduleName env.json request = .ok module := by
          rw [moduleName,← pageName_prepare hreason,hname]
          exact hstr
        have htime : timed.lookup kind.clock.resource = some (.int (kind.time timings)) := by
          rw [processorSetupMinute_lookup hminute (by cases kind <;> decide),
            hlookup _ (by cases kind <;> decide) (by cases kind <;> decide) (by cases kind <;> decide)]
          exact prepare_lookup hreason
        have hlong : (processorSetupTime env.json timed kind.clock.resource (some (lit "frontend_time"))).1 >
            feMsgOutlierThresholdMs ↔ _ := processorSetupTime_gt htime
        by_cases hgt : kind.time timings > 60000
        · rw [if_pos (hlong.mpr hgt)] at h
          obtain ⟨rfl,rfl⟩ := Prod.mk.inj (Except.ok.inj h)
          exact ⟨_,.outlier hread hvalid hreason hmodule hgt,rfl⟩
        · rw [if_neg (mt hlong.mp hgt)] at h
          obtain ⟨updated,hadd,h⟩ := bind_eq_ok_iff.mp h
          obtain ⟨rfl,rfl⟩ := Prod.mk.inj (Except.ok.inj h)
          exact ⟨updated,.accepted hread hvalid hreason hmodule hgt hadd,rfl⟩
      · rw [if_pos hreason] at h
        obtain ⟨rfl,rfl⟩ := Prod.mk.inj (Except.ok.inj h)
        exact ⟨self,.rejected hread hvalid hreason,rfl⟩

/-! Documented and actual reasons. -/

section
variable {env : Env n} {self next : Processor n} {request : JObject} {tracked : Bool} {kind : FrontendKind}
  {reason : FeMsgDropReason} {timings : List ℤ}

lemma prepare_reason : (kind.prepare env request timings).1 =
    if kind.unsupported timings then .navTiming else if kind.inOrder timings then .accepted else .invalid := by
  cases kind with
  | page =>
    refine convert_reason.trans ?_
    simp [FrontendKind.unsupported,FrontendKind.inOrder]
  | ajax =>
    simp only [FrontendKind.prepare,FrontendKind.unsupported,FrontendKind.inOrder,Bool.false_eq_true,if_false,
      decide_eq_true_eq,← not_lt,ite_not]

lemma checkedReason_of_read (hread : rtsTimings env.json kind request = some timings)
    (hvalid : checkFrontendRequestValidity env.json request tracked = true) :
    checkedReason env.json kind request tracked =
      if (kind.prepare env request timings).1 ≠ .accepted then (kind.prepare env request timings).1
      else if kind.time timings > 60000 then .outlier else .accepted := by
  rw [checkFrontendRequestValidity_eq] at hvalid
  rw [checkedReason,hread,hvalid,prepare_reason]
  cases hzero : kind.unsupported timings <;> cases horder : kind.inOrder timings <;> simp [reasonFor,hzero,horder]

/-- The handlers answer by their own tests, unless there is no backend request. -/
lemma processorAddFrontend_answer (h : processorAddFrontend env self request tracked kind = .ok (reason,next)) :
    reason = if rtsTimings env.json kind request = none then .corrupted
      else if knownRequest env.json request tracked = false then kind.untracked
      else checkedReason env.json kind request tracked := by
  obtain ⟨updated,houtcome,-⟩ := processorAddFrontend_outcome h
  cases houtcome with
  | corrupted hread => rw [if_pos hread]
  | untracked hread hvalid =>
    rw [checkFrontendRequestValidity_eq] at hvalid
    rw [hread,if_neg (by simp),if_pos hvalid]
  | rejected hread hvalid hreason =>
    rw [checkedReason_of_read hread hvalid,hread,← checkFrontendRequestValidity_eq,hvalid]
    simp [hreason]
  | outlier hread hvalid hreason _ htime =>
    rw [checkedReason_of_read hread hvalid,hread,← checkFrontendRequestValidity_eq,hvalid]
    simp [hreason,htime]
  | accepted hread hvalid hreason _ htime _ =>
    rw [checkedReason_of_read hread hvalid,hread,← checkFrontendRequestValidity_eq,hvalid]
    simp [hreason,htime]

lemma checkedReason_eq_documented_iff {numbers : List ℤ} (hnumbers : rtsNumbers env.json kind request = some numbers)
    (hknown : knownRequest env.json request tracked = true) :
    checkedReason env.json kind request tracked = documentedReason env.json kind request tracked ↔
      kind.Conforms numbers := by
  have hiff : kind.Conforms numbers ↔ kind.unsupported (numbers.map toInt64) = kind.unsupported numbers ∧
      (kind.unsupported numbers = false →
        (kind.inOrder (numbers.map toInt64) = true ↔ numbers.Pairwise (· ≤ ·))) ∧
      (kind.unsupported numbers = false → numbers.Pairwise (· ≤ ·) →
        (kind.time (numbers.map toInt64) > 60000 ↔ kind.duration numbers > 60000)) :=
    ⟨fun h => ⟨h.1,h.2,h.3⟩,fun h => ⟨h.1,h.2.1,h.2.2⟩⟩
  rw [hiff,checkedReason,documentedReason,rtsTimings_eq,hnumbers,hknown,Option.map_some]
  by_cases hsorted : numbers.Pairwise (· ≤ ·) <;> by_cases hlong : kind.duration numbers > 60000 <;>
    by_cases htime : kind.time (numbers.map toInt64) > 60000 <;> cases hzeros : kind.unsupported numbers <;>
    cases hread : kind.unsupported (numbers.map toInt64) <;> cases horder : kind.inOrder (numbers.map toInt64) <;>
    simp [reasonFor,hsorted,hlong,htime,hzeros,hread,horder]

/-- The last of the timings in order is zero only if all of them are. -/
lemma eq_zero_of_last {numbers : List ℤ} (hlength : numbers.length = loadEventEnd+1) (hnonneg : ∀ t ∈ numbers,0 ≤ t)
    (hsorted : numbers.Pairwise (· ≤ ·)) (hlast : numbers.getD loadEventEnd 0 = 0) : ∀ t ∈ numbers,t = 0 := by
  intro t ht
  have hlt : loadEventEnd < numbers.length := hlength ▸ Nat.lt_succ_self _
  rw [List.getD_eq_getElem numbers 0 hlt] at hlast
  obtain ⟨i,hi,rfl⟩ := List.getElem_of_mem ht
  rcases (Nat.le_of_lt_succ (hi.trans_eq hlength)).eq_or_lt with rfl | hle
  · exact hlast
  · exact le_antisymm ((List.pairwise_iff_getElem.mp hsorted i loadEventEnd hi hlt hle).trans_eq hlast) (hnonneg _ ht)

lemma duration_eq_time {numbers : List ℤ} (hlength : numbers.length = kind.numTimings)
    (hrange : ∀ t ∈ numbers,0 ≤ t ∧ t < 2^62) (hzeros : kind.unsupported numbers = false)
    (hsorted : numbers.Pairwise (· ≤ ·)) : kind.time numbers = kind.duration numbers := by
  cases kind with
  | ajax =>
    have hstart := getD_mem_range hrange 0
    have hend := getD_mem_range hrange 1
    exact toInt64_of_lt (by omega) (by omega)
  | page =>
    have hlast : numbers.getD loadEventEnd 0 ≠ 0 := by
      intro hlast
      have hall := eq_zero_of_last hlength (fun t ht => (hrange t ht).1) hsorted hlast
      have hsupported : FrontendKind.page.unsupported numbers = true := List.all_eq_true.mpr fun t ht => by rw [hall t ht]; rfl
      rw [hsupported] at hzeros
      cases hzeros
    change relative numbers loadEventEnd = _
    rw [relative_of_ne_zero hrange (by decide),sinceStart,if_neg hlast]
    rfl

/-- Numbers below 2^62 are read as they are, and so are the times between them. What is left to ask is that
the timings of a page that are compared are in order just if all of its timings are. -/
lemma conforms_iff {numbers : List ℤ} (hlength : numbers.length = kind.numTimings)
    (hrange : ∀ t ∈ numbers,0 ≤ t ∧ t < 2^62) :
    kind.Conforms numbers ↔
      (kind.unsupported numbers = false → (kind.inOrder numbers = true ↔ numbers.Pairwise (· ≤ ·))) := by
  have hread : numbers.map toInt64 = numbers := by
    refine (List.map_congr_left fun t ht => ?_).trans (List.map_id numbers)
    have := hrange t ht
    exact toInt64_of_lt (by omega) (by omega)
  constructor
  · intro h
    have horder := h.order
    rwa [hread] at horder
  · intro h
    refine ⟨by rw [hread],by rwa [hread],fun hzeros hsorted => ?_⟩
    rw [hread,duration_eq_time hlength hrange hzeros hsorted]

/-- The handlers give the reason that is documented if their tests, which wrap around and leave out some
of the timings of a page, agree with the numbers in the message; for pages there has to be a backend
request besides. Without one they answer that the timings are out of order. -/
theorem processorAddFrontend_documented_iff
    (h : processorAddFrontend env self request tracked kind = .ok (reason,next)) :
    reason = documentedReason env.json kind request tracked ↔
      ∀ numbers,rtsNumbers env.json kind request = some numbers →
        if knownRequest env.json request tracked then kind.Conforms numbers else kind = .ajax := by
  rw [processorAddFrontend_answer h,rtsTimings_eq]
  cases hnumbers : rtsNumbers env.json kind request with
  | none => simp [documentedReason,reasonFor,hnumbers]
  | some numbers =>
    cases hknown : knownRequest env.json request tracked with
    | false => cases kind <;> simp [documentedReason,reasonFor,hnumbers,hknown,FrontendKind.untracked]
    | true => simp [checkedReason_eq_documented_iff hnumbers hknown]

end

/-- A page that took more than a minute to load. -/
def slowPage : JObject :=
  [(lit "action",.str (lit "Cart::Item#show")),(lit "started_at",.str (lit "2026-01-31T10:20:32")),
    (lit "request_id",.str (lit "4f2a")),
    (lit "rts",.str (lit "1000,1005,1010,1015,1015,1020,1020,1200,1210,1215,1300,1310,1320,1400,1405,61410"))]

theorem slowPage_documented : ∃ reason next,
    processorAddFrontend sampleEnv processorNew slowPage true .page = .ok (reason,next) ∧
      reason = documentedReason sampleEnv.json .page slowPage true := by
  obtain ⟨⟨reason,next⟩,h⟩ : ∃ r,processorAddFrontend sampleEnv processorNew slowPage true .page = .ok r :=
    exists_ok_of_isOk (by decide +kernel)
  refine ⟨reason,next,h,(processorAddFrontend_documented_iff h).mpr fun numbers hnumbers => ?_⟩
  obtain rfl : [1000,1005,1010,1015,1015,1020,1020,1200,1210,1215,1300,1310,1320,1400,1405,61410] = numbers :=
    Option.some.inj (Eq.trans (by decide +kernel) hnumbers)
  rw [if_pos (by decide +kernel),conforms_iff rfl (by decide)]
  decide +kernel

/-- The tracker does not know the request of the page. -/
theorem slowPage_untracked :
    (processorAddFrontend sampleEnv processorNew slowPage false .page).toOption.map Prod.fst = some .invalid ∧
      documentedReason sampleEnv.json .page slowPage false = .illegal := by
  decide +kernel

/-! What a dropped message leaves behind. -/

/-- Nothing but the user agents has changed. -/
structure KeepsAggregates (old new : Processor n) : Prop where
  modules : new.modules = old.modules
  totals : new.totals = old.totals
  minutes : new.minutes = old.minutes
  quants : new.quants = old.quants
  histograms : new.histograms = old.histograms

lemma keepsAggregates_addUserAgent_iff {self updated : Processor n} {agent : Option Bytes} {reason : FeMsgDropReason} :
    KeepsAggregates self (processorAddUserAgent updated agent reason) ↔ KeepsAggregates self updated := by
  cases agent <;> exact ⟨fun h => ⟨h.1,h.2,h.3,h.4,h.5⟩,fun h => ⟨h.1,h.2,h.3,h.4,h.5⟩⟩

lemma addModule_modules_iff (self : Processor n) (module : Bytes) :
    (addModule self module).modules = self.modules ↔ module ∈ self.modules := by
  have hget (k : Bytes) : (addModule self module).modules[k]? =
      if module = k then some () else self.modules[k]? := by
    refine (getElem?_combineAt (fun stored _ : Unit => stored) self.modules module k ()).trans ?_
    cases self.modules[k]? <;> rfl
  rw [Std.ExtTreeMap.mem_iff_isSome_getElem?]
  constructor
  · intro h
    rw [← h,hget,if_pos rfl]
    rfl
  · intro h
    refine Std.ExtTreeMap.ext_getElem? fun k => ?_
    rw [hget]
    split_ifs with hk
    · obtain ⟨u,hu⟩ := Option.isSome_iff_exists.mp h
      rw [← hk,hu]
    · rfl

lemma keepsAggregates_addModule_iff (self : Processor n) (module : Bytes) :
    KeepsAggregates self (addModule self module) ↔ module ∈ self.modules := by
  rw [← addModule_modules_iff]
  exact ⟨fun h => h.modules,fun h => ⟨h,rfl,rfl,rfl,rfl⟩⟩

/-- A message that is dropped leaves nothing in the aggregates, unless it took too long, by the timings as
they are read, and its module is new: the module has been entered by then. -/
theorem processorAddFrontend_dropped_iff {env : Env n} {self next : Processor n} {request : JObject} {tracked : Bool}
    {kind : FrontendKind} {reason : FeMsgDropReason}
    (h : processorAddFrontend env self request tracked kind = .ok (reason,next)) (hdropped : reason ≠ .accepted) :
    KeepsAggregates self next ↔ (checkedReason env.json kind request tracked = .outlier →
      ∀ module,moduleName env.json request = .ok module → module ∈ self.modules) := by
  obtain ⟨updated,houtcome,rfl⟩ := processorAddFrontend_outcome h
  have hsame : KeepsAggregates self self := ⟨rfl,rfl,rfl,rfl,rfl⟩
  rw [keepsAggregates_addUserAgent_iff]
  cases houtcome with
  | corrupted hread =>
    refine iff_of_true hsame fun hdoc => ?_
    rw [checkedReason,hread] at hdoc
    cases hdoc
  | untracked hread hvalid =>
    refine iff_of_true hsame fun hdoc => ?_
    rw [checkedReason,hread,← checkFrontendRequestValidity_eq,hvalid] at hdoc
    cases hdoc
  | rejected hread hvalid hreason =>
    refine iff_of_true hsame fun hdoc => ?_
    rw [checkedReason_of_read hread hvalid,if_pos hreason,prepare_reason] at hdoc
    split_ifs at hdoc
  | outlier hread hvalid hreason hmodule htime =>
    have hdoc : checkedReason env.json kind request tracked = .outlier := by
      rw [checkedReason_of_read hread hvalid,if_neg (not_not.mpr hreason),if_pos htime]
    rw [keepsAggregates_addModule_iff]
    constructor
    · intro hmem _ m hm
      exact Except.ok.inj (hmodule.symm.trans hm) ▸ hmem
    · exact fun hall => hall hdoc _ hmodule
  | accepted => exact absurd rfl hdropped

theorem slowPage_dropped : ∃ reason next,
    processorAddFrontend sampleEnv (addModule processorNew (lit "::Cart")) slowPage true .page = .ok (reason,next) ∧
      reason ≠ .accepted ∧ KeepsAggregates (addModule processorNew (lit "::Cart")) next := by
  have hreason : (processorAddFrontend sampleEnv (addModule processorNew (lit "::Cart")) slowPage true
      .page).toOption.map Prod.fst = some .outlier := by decide +kernel
  have hmodule : (moduleName sampleEnv.json slowPage).toOption = some (lit "::Cart") := by decide +kernel
  obtain ⟨⟨_,next⟩,h,rfl⟩ := exists_ok_of_toOption_map hreason
  refine ⟨_,next,h,by decide,(processorAddFrontend_dropped_iff h (by decide)).mpr ?_⟩
  intro _ module hname
  rw [hname] at hmodule
  obtain rfl : module = lit "::Cart" := Option.some.inj hmodule
  decide +kernel

/-- The module of the first page that is too slow. -/
theorem slowPage_leaves_module :
    (processorAddFrontend sampleEnv processorNew slowPage true .page).toOption.map Prod.fst = some .outlier ∧
      (processorAddFrontend sampleEnv processorNew slowPage true .page).toOption.map (·.2.modules.keys) =
        some [lit "::Cart"] ∧
      (processorNew : Processor 10).modules.keys = [] := by
  decide +kernel

end Logjam.Importer
