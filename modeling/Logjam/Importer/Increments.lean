import Logjam.Library.MergeMap
import Logjam.Importer.Resources

/-! Increments: what one request, or many of them together, adds to a statistics document.
Counters do not overflow and metric values are exact. The dynamic counters are a JSON object
into which only integers are ever put. -/
namespace Logjam.Importer
open Logjam.Library.MergeMap

/-- A zhash, keyed by C strings. -/
abbrev ZHash (V : Type) := Std.ExtTreeMap Bytes V compare

/-- The order in which the keys of a zhash come. It depends on their slots, and is left open. -/
structure Traversal where
  order : List Bytes → List Bytes
  perm : ∀ keys,(order keys).Perm keys

def Traversal.keys {V : Type} (traversal : Traversal) (hash : ZHash V) : List Bytes := traversal.order hash.keys

lemma Traversal.mem_keys {V : Type} {traversal : Traversal} {hash : ZHash V} {key : Bytes} :
    key ∈ traversal.keys hash ↔ key ∈ hash := (traversal.perm _).mem_iff.trans Std.ExtTreeMap.mem_keys

def byKey : Traversal := ⟨id,.refl⟩
def byKeyBackwards : Traversal := ⟨List.reverse,List.reverse_perm⟩

@[ext] structure MetricPair where
  val : ℚ
  valSquared : ℚ
  valMax : ℚ
  deriving DecidableEq

/-- The loop body of increments_add for one metric. -/
def MetricPair.accumulate (stored addend : MetricPair) : MetricPair where
  val := stored.val+addend.val
  valSquared := stored.valSquared+addend.valSquared
  valMax := if stored.valMax < addend.valMax then addend.valMax else stored.valMax

@[ext] structure Increments (n : ℕ) where
  backendRequestCount : ℕ
  pageRequestCount : ℕ
  ajaxRequestCount : ℕ
  metrics : Fin n → MetricPair
  others : ZHash ℕ

variable {n : ℕ}

def incrementsNew : Increments n := ⟨0,0,0,fun _ => ⟨0,0,0⟩,∅⟩

def incrementsAdd (stored increments : Increments n) : Increments n where
  backendRequestCount := stored.backendRequestCount+increments.backendRequestCount
  pageRequestCount := stored.pageRequestCount+increments.pageRequestCount
  ajaxRequestCount := stored.ajaxRequestCount+increments.ajaxRequestCount
  metrics i := (stored.metrics i).accumulate (increments.metrics i)
  others := foreachWith (· + ·) stored.others increments.others

lemma MetricPair.accumulate_valMax (a b : MetricPair) : (a.accumulate b).valMax = max a.valMax b.valMax := by
  unfold MetricPair.accumulate
  split_ifs with h
  · exact (max_eq_right h.le).symm
  · exact (max_eq_left (not_lt.mp h)).symm

instance : Add MetricPair := ⟨MetricPair.accumulate⟩

@[simp] lemma MetricPair.add_val (a b : MetricPair) : (a+b).val = a.val+b.val := rfl
@[simp] lemma MetricPair.add_valSquared (a b : MetricPair) :
    (a+b).valSquared = a.valSquared+b.valSquared := rfl
@[simp] lemma MetricPair.add_valMax (a b : MetricPair) : (a+b).valMax = max a.valMax b.valMax :=
  accumulate_valMax a b

/-- Sums and maxima do not depend on grouping or order. There is no neutral element: the maximum
of negative values is negative. -/
instance : AddCommSemigroup MetricPair where
  add_assoc a b c := by ext <;> simp [add_assoc,max_assoc]
  add_comm a b := by ext <;> simp [add_comm,max_comm]

instance : Add (Increments n) := ⟨incrementsAdd⟩

@[simp] lemma Increments.add_backendRequestCount (a b : Increments n) :
    (a+b).backendRequestCount = a.backendRequestCount+b.backendRequestCount := rfl
@[simp] lemma Increments.add_pageRequestCount (a b : Increments n) :
    (a+b).pageRequestCount = a.pageRequestCount+b.pageRequestCount := rfl
@[simp] lemma Increments.add_ajaxRequestCount (a b : Increments n) :
    (a+b).ajaxRequestCount = a.ajaxRequestCount+b.ajaxRequestCount := rfl
@[simp] lemma Increments.add_metrics (a b : Increments n) (i : Fin n) :
    (a+b).metrics i = a.metrics i+b.metrics i := rfl
@[simp] lemma Increments.add_others (a b : Increments n) : (a+b).others = a.others+b.others :=
  foreachWith_eq_add (fun _ _ => rfl) a.others b.others

/-- Accumulating increments is commutative and associative. -/
instance : AddCommSemigroup (Increments n) where
  add_assoc a b c := by
    apply Increments.ext
    · simp [add_assoc]
    · simp [add_assoc]
    · simp [add_assoc]
    · funext i
      simp [add_assoc]
    · simp [add_assoc]
  add_comm a b := by
    apply Increments.ext
    · simp [add_comm]
    · simp [add_comm]
    · simp [add_comm]
    · funext i
      simp [add_comm]
    · simp [add_comm]

/-- json_object_object_add of NEW_INT1: the counter is one, also when the request names it twice. -/
def Increments.countOne (incs : Increments n) (key : Bytes) : Increments n :=
  { incs with others := incs.others.insert key 1 }

def incrementsFillMetrics (lib : JsonLib) (res : Resources n) (incs : Increments n) (request : JObject) :
    Increments n where
  backendRequestCount := incs.backendRequestCount
  pageRequestCount := incs.pageRequestCount
  ajaxRequestCount := incs.ajaxRequestCount
  metrics i :=
    match request.lookup (res.intToResource i) with
    | some v =>
      let x := jsonObjectGetDouble lib v
      ⟨x,x*x,x⟩
    | none => incs.metrics i
  others := incs.others

/-- The four apdex groups differ in the name of the group and in the three bounds. The second
component is the satisfaction the caller reports to statsd. -/
def fillApdexGroup (group : Bytes) (happy satisfied tolerating : ℚ) (incs : Increments n) (time : ℚ) :
    Increments n × Bytes :=
  if time < happy then
    ((incs.countOne (group ++ lit ".happy")).countOne (group ++ lit ".satisfied"),lit "satisfied")
  else if time < satisfied then (incs.countOne (group ++ lit ".satisfied"),lit "satisfied")
  else if time < tolerating then (incs.countOne (group ++ lit ".tolerating"),lit "tolerating")
  else (incs.countOne (group ++ lit ".frustrated"),lit "frustrated")

def incrementsFillApdex (incs : Increments n) (totalTime : ℚ) : Increments n × Bytes :=
  fillApdexGroup (lit "apdex") 100 500 2000 incs totalTime
def incrementsFillFrontendApdex (incs : Increments n) (totalTime : ℚ) : Increments n × Bytes :=
  fillApdexGroup (lit "fapdex") 500 2000 8000 incs totalTime
def incrementsFillPageApdex (incs : Increments n) (totalTime : ℚ) : Increments n × Bytes :=
  fillApdexGroup (lit "papdex") 500 2000 8000 incs totalTime
def incrementsFillAjaxApdex (incs : Increments n) (totalTime : ℚ) : Increments n × Bytes :=
  fillApdexGroup (lit "xapdex") 500 2000 8000 incs totalTime

def incrementsFillResponseCode (incs : Increments n) (responseCode : ℤ) : Increments n :=
  incs.countOne (snprintf 256 (lit "response." ++ decimalInt responseCode))
def incrementsFillSeverity (incs : Increments n) (severity : ℤ) : Increments n :=
  incs.countOne (snprintf 256 (lit "severity." ++ decimalInt severity))

def replaceDotsAndDollars (s : Bytes) : Bytes := s.map fun c => if c = 46 ∨ c = 36 then 95 else c

/-- A dot becomes U+2024 and a dollar sign U+00A4. -/
def copyReplaceDotsAndDollars (s : Bytes) : Bytes :=
  s.flatMap fun c => if c = 46 then [226,128,164] else if c = 36 then [194,164] else [c]

def uriReplaceDotsAndDollars (s : Bytes) : Bytes :=
  s.flatMap fun c => if c = 46 then lit "%2E" else if c = 36 then lit "%24" else [c]

/-- The loop shared by the hard and the soft exceptions. -/
def fillExceptionGroup (lib : JsonLib) (group : Bytes) (incs : Increments n) (exceptions : Option Json) :
    Except Fault (Increments n) :=
  match exceptions with
  | none => .ok incs
  | some v => do
    let xs ← jsonArray v
    xs.foldlM (fun incs x => do
      let s ← jsonString lib x
      return incs.countOne (group ++ replaceDotsAndDollars s)) incs

def incrementsFillExceptions (lib : JsonLib) (incs : Increments n) (exceptions : Option Json) :
    Except Fault (Increments n) := fillExceptionGroup lib (lit "exceptions.") incs exceptions
def incrementsFillSoftExceptions (lib : JsonLib) (incs : Increments n) (softExceptions : Option Json) :
    Except Fault (Increments n) := fillExceptionGroup lib (lit "soft_exceptions.") incs softExceptions

def incrementsFillJsException (incs : Increments n) (jsException : Bytes) : Increments n :=
  incs.countOne (lit "js_exceptions." ++ uriReplaceDotsAndDollars jsException)

/-- Split at the last dash; both parts must fit the caller's buffers. -/
def extractAppEnv (appEnv : Bytes) (n : ℕ) : Option (Bytes × Bytes) :=
  match rindex appEnv 45 with
  | none => none
  | some p =>
    let app := appEnv.take p
    let env := appEnv.drop (p+1)
    if app.length ≤ n ∧ env.length ≤ n then some (app,env) else none

def extractAppEnvRid (s : Bytes) (n : ℕ) : Option (Bytes × Bytes × Bytes) :=
  match rindex s 45 with
  | none => none
  | some p =>
    let rid := s.drop (p+1)
    if rid.length ≤ n then (extractAppEnv (s.take p) n).map fun r => (r.1,r.2,rid) else none

/-- A string member that is present, not null and not empty. -/
def nonEmptyMember (lib : JsonLib) (request : JObject) (key : Bytes) : Option Bytes := do
  let v ← request.lookup key
  let s ← jsonObjectGetString lib v
  if s = [] then none else some s

/-- Callers and senders differ in their member names and in the separator. -/
def fillPeerInfo (lib : JsonLib) (action id group separator : Bytes) (incs : Increments n)
    (request : JObject) : Increments n :=
  match nonEmptyMember lib request action,nonEmptyMember lib request id with
  | some peerAction,some peerId =>
    match extractAppEnvRid peerId (peerId.length+1) with
    | some (app,_,_) => incs.countOne (group ++ copyReplaceDotsAndDollars app ++ separator ++
        copyReplaceDotsAndDollars peerAction)
    | none => incs
  | _,_ => incs

def incrementsFillCallerInfo (lib : JsonLib) (incs : Increments n) (request : JObject) : Increments n :=
  fillPeerInfo lib (lit "caller_action") (lit "caller_id") (lit "callers.") (lit "@") incs request
def incrementsFillSenderInfo (lib : JsonLib) (incs : Increments n) (request : JObject) : Increments n :=
  fillPeerInfo lib (lit "sender_action") (lit "sender_id") (lit "senders.") (lit "-") incs request

end Logjam.Importer
