import Logjam.Importer.ModuleNames
import Logjam.Importer.Severity
import Logjam.Util.Compression
import Logjam.Util.RequestIds

/-! The conversion of a parsed message to GELF. Levels are used as indexes of two tables, and the application of the
caller is read from a buffer whatever the function that fills it has returned. -/
namespace Logjam.Graylog
open Library
open Logjam.Importer (StreamInfo moduleStr adjustCallerInfo lookup_adjustCallerInfo lookup_defaultMember defaultMember nonEmptyMember
  moduleWrites_fit_of_normalised moduleStr_isOk_iff KnownLevel)

/-- The ways in which the conversion does not return. The last one is a write behind a buffer. -/
inductive GelfFault
  | levelOutOfRange
  | nullString
  | callerAppNotFilled
  | other (fault : Fault)
  deriving DecidableEq

def logLevelsNames : List Bytes := [lit "Debug",lit "Info",lit "Warn",lit "Error",lit "Fatal",lit "Unknown"]

def syslogMapping : List ℤ := [7,6,5,4,3,1]

/-- The element of a table with one entry for each level. -/
def atLevel {α : Type} (table : List α) (level : ℤ) : Except GelfFault α :=
  match if 0 ≤ level then table[level.toNat]? else none with
  | some entry => .ok entry
  | none => .error .levelOutOfRange

/-- A string whose length is taken. -/
def measured : Option Bytes → Except GelfFault Bytes
  | some s => .ok s
  | none => .error .nullString

def gelfMessageNew (host shortMessage : Bytes) : JObject :=
  [(lit "version",.str (lit "1.1")),(lit "host",.str host),(lit "short_message",.str shortMessage)]

def copyMember (gelf : JObject) (key : Bytes) : Option Json → JObject
  | some obj => gelf.add key obj
  | none => gelf

def notNull : Json → Bool
  | .null => false
  | _ => true

/-! The members that are copied. -/

def strNormalize (s : Bytes) : Bytes :=
  s.map fun c => if 65 ≤ c ∧ c ≤ 90 then c+32 else if c = 45 then 95 else c

def headerKey (key : Bytes) : Bytes :=
  let header := snprintf 1024 (lit "_http_header_" ++ key)
  header.take 13 ++ strNormalize (header.drop 13)

def httpHeaders (gelf : JObject) : Option Json → JObject
  | some (.obj headers) => headers.foldl (fun gelf header => gelf.add (headerKey header.1) header.2) gelf
  | _ => gelf

def httpMembers (gelf request : JObject) : JObject :=
  match request.lookup (lit "request_info") with
  | none => gelf
  | some info =>
    let gelf := copyMember gelf (lit "_http_method") (jsonObjectObjectGetEx info (lit "method"))
    let gelf := copyMember gelf (lit "_http_url") (jsonObjectObjectGetEx info (lit "url"))
    httpHeaders gelf (jsonObjectObjectGetEx info (lit "headers"))

/-- The start of the request in milliseconds, by default the current time. -/
def startedMs (lib : JsonLib) (clockTime : ℤ) (request : JObject) : ℤ :=
  match request.lookup (lit "started_ms") with
  | some obj => jsonObjectGetInt64 lib obj
  | none => clockTime

def requestMembers (lib : JsonLib) (appEnv : Bytes) (clockTime : ℤ) (gelf request : JObject) : JObject :=
  let gelf := gelf.add (lit "_app") (.str appEnv)
  let gelf := gelf.add (lit "timestamp") (.double (startedMs lib clockTime request/1000))
  let gelf := copyMember gelf (lit "_code") (request.lookup (lit "code"))
  let gelf := copyMember gelf (lit "_request_id") (request.lookup (lit "request_id"))
  let gelf := copyMember gelf (lit "_ip") (request.lookup (lit "ip"))
  let gelf := copyMember gelf (lit "_process_id") (request.lookup (lit "process_id"))
  let gelf := copyMember gelf (lit "_user_id") ((request.lookup (lit "user_id")).filter notNull)
  let gelf := copyMember gelf (lit "_total_time") (request.lookup (lit "total_time"))
  httpMembers gelf request

/-! The parts that may fail. -/

/-- The action of the message, before it is completed. -/
def givenAction (lib : JsonLib) (request : JObject) : Bytes :=
  match request.lookup (lit "action") with
  | some obj => (jsonObjectGetString lib obj).getD []
  | none => []

/-- The scratch buffer, whose size is computed with ints. -/
def scratchFor (lib : JsonLib) (scratch : Chunk) (request : JObject) : Chunk :=
  zchunkEnsureSize scratch (sizeOfInt (toInt32 (givenAction lib request).length+100))

/-- The action is completed in the scratch buffer. -/
def completeAction (lib : JsonLib) (scratch : Chunk) (request : JObject) : Except GelfFault Bytes :=
  let action := gelfAction lib request
  if action.length < (scratchFor lib scratch request : ℕ) then .ok action else .error (.other .bufferOverflow)

def hostOf (lib : JsonLib) (request : JObject) : Option Bytes :=
  match request.lookup (lit "host") with
  | some obj => jsonObjectGetString lib obj
  | none => some (lit "Not found")

def urlOf (request : JObject) : Option Json :=
  (request.lookup (lit "request_info")).bind fun info => jsonObjectObjectGetEx info (lit "url")

/-- The request with the caller information that HTTP requests get. -/
def adjusted (lib : JsonLib) (info : StreamInfo) (action : Bytes) (request : JObject) : Except GelfFault JObject :=
  match urlOf request with
  | none => .ok request
  | some url => do
    let module ← (moduleStr action).mapError .other
    return adjustCallerInfo lib (jsonObjectGetString lib url) module request info

def callerBufferSize : ℕ := 256

/-- The bytes that have been written to the buffer of the application. -/
def appWritten (writes : List Write) : Bytes := (writes.filter fun w => w.output = .app).map (·.byte)

/-- What is read from the buffers after the call, whose result is ignored. -/
def readApp (writes : List Write) : Except GelfFault Bytes :=
  if ∀ w ∈ writes,w.index < callerBufferSize then
    if 0 ∈ appWritten writes then .ok (cstr (appWritten writes)) else .error .callerAppNotFilled
  else .error (.other .bufferOverflow)

def callerApp (callerId : Bytes) : Except GelfFault Bytes := do
  let extraction ← (extractAppEnvRidInto callerId callerBufferSize).mapError .other
  readApp extraction.writes

/-- The text of a caller id other than null. -/
def callerIdOf (lib : JsonLib) (request : JObject) : Option Bytes :=
  (request.lookup (lit "caller_id")).bind (jsonObjectGetString lib)

def callerMembers (lib : JsonLib) (gelf request : JObject) : Except GelfFault JObject :=
  match callerIdOf lib request with
  | none => .ok gelf
  | some callerId => do
    let gelf := copyMember gelf (lit "_caller_id") (request.lookup (lit "caller_id"))
    let app ← callerApp callerId
    return gelf.add (lit "_caller_app") (.str app)

/-- One round of the loop over the lines, with the highest level and the text so far. -/
def appendLine (lib : JsonLib) (state : ℤ × Bytes) : Json → Except GelfFault (ℤ × Bytes)
  | .arr parts => do
    let l := jsonObjectGetInt lib (parts.getD 0 .null)
    let level := if l > state.1 then l else state.1
    let name ← atLevel logLevelsNames l
    let time ← measured (jsonObjectGetString lib (parts.getD 1 .null))
    let text ← measured (jsonObjectGetString lib (parts.getD 2 .null))
    return (level,state.2 ++ name ++ lit " " ++ time ++ lit " " ++ text ++ [10])
  | _ => .ok state

def severityOf (lib : JsonLib) (request : JObject) : ℤ :=
  match request.lookup (lit "severity") with
  | some obj => jsonObjectGetInt lib obj
  | none => 0

def linesOf (request : JObject) : Option (List Json) :=
  match request.lookup (lit "lines") with
  | some (.arr lines) => some lines
  | _ => none

/-- The full message and the highest level. -/
def fullMessage (lib : JsonLib) (gelf request : JObject) : Except GelfFault (JObject × ℤ) :=
  match linesOf request with
  | none => .ok (gelf,severityOf lib request)
  | some lines => do
    let state ← lines.foldlM (appendLine lib) (severityOf lib request,[])
    return (gelf.add (lit "full_message") (.str (cstr state.2)),state.1)

def lastMembers (gelf : JObject) (syslog : ℤ) (size : ℕ) : JObject :=
  (gelf.add (lit "level") (.int syslog)).add (lit "_logjam_message_size") (.int (toInt32 size))

/-- The part of logjam_message_to_gelf that follows the JSON parser. -/
def requestToGelf (lib : JsonLib) (info : StreamInfo) (appEnv : Bytes) (clockTime : ℤ) (size : ℕ) (scratch : Chunk)
    (request : JObject) : Except GelfFault JObject := do
  let action ← completeAction lib scratch request
  let host ← measured (hostOf lib request)
  let gelf := requestMembers lib appEnv clockTime (gelfMessageNew host action) request
  let request ← adjusted lib info action request
  let gelf ← callerMembers lib gelf request
  let gelf := copyMember gelf (lit "_caller_action") ((request.lookup (lit "caller_action")).filter notNull)
  let message ← fullMessage lib gelf request
  let syslog ← atLevel syslogMapping message.2
  return lastMembers message.1 syslog size

/-! The tables. -/

variable {lib : JsonLib} {info : StreamInfo} {request gelf : JObject} {scratch : Chunk}

lemma atLevel_ok_iff {α : Type} (table : List α) (htable : table.length = 6) (level : ℤ) :
    (∃ entry,atLevel table level = .ok entry) ↔ KnownLevel level := by
  unfold atLevel KnownLevel
  by_cases hneg : 0 ≤ level
  · rw [if_pos hneg]
    cases hentry : table[level.toNat]? with
    | none =>
      rw [List.getElem?_eq_none_iff] at hentry
      exact iff_of_false (by simp) (by omega)
    | some entry =>
      obtain ⟨hlt,-⟩ := List.getElem?_eq_some_iff.mp hentry
      exact iff_of_true ⟨entry,rfl⟩ (by omega)
  · rw [if_neg hneg]
    exact iff_of_false (by simp) fun h => hneg h.1

lemma measured_ok_iff {s : Option Bytes} : (∃ text,measured s = .ok text) ↔ s.isSome := by
  cases s with
  | none => exact iff_of_false (by simp [measured]) (by simp)
  | some s => exact iff_of_true ⟨s,rfl⟩ rfl

/-! Lines. -/

/-- The parts of a line that are used are there. -/
def LineSafe (lib : JsonLib) : Json → Prop
  | .arr parts => KnownLevel (jsonObjectGetInt lib (parts.getD 0 .null)) ∧
      (jsonObjectGetString lib (parts.getD 1 .null)).isSome ∧ (jsonObjectGetString lib (parts.getD 2 .null)).isSome
  | _ => True

def isArray : Json → Bool
  | .arr _ => true
  | _ => false

lemma appendLine_ok_iff (lib : JsonLib) (state : ℤ × Bytes) (line : Json) :
    (∃ next,appendLine lib state line = .ok next) ↔ LineSafe lib line := by
  cases line with
  | arr parts =>
    constructor
    · rintro ⟨next,h⟩
      obtain ⟨name,hname,h⟩ := bind_eq_ok_iff.mp h
      obtain ⟨time,htime,h⟩ := bind_eq_ok_iff.mp h
      obtain ⟨text,htext,-⟩ := bind_eq_ok_iff.mp h
      exact ⟨(atLevel_ok_iff _ rfl _).mp ⟨name,hname⟩,measured_ok_iff.mp ⟨time,htime⟩,measured_ok_iff.mp ⟨text,htext⟩⟩
    · rintro ⟨hlevel,htime,htext⟩
      obtain ⟨name,hname⟩ := (atLevel_ok_iff logLevelsNames rfl _).mpr hlevel
      obtain ⟨time,htime⟩ := measured_ok_iff.mpr htime
      obtain ⟨text,htext⟩ := measured_ok_iff.mpr htext
      exact ⟨_,bind_eq_ok_iff.mpr ⟨name,hname,bind_eq_ok_iff.mpr ⟨time,htime,bind_eq_ok_iff.mpr ⟨text,htext,rfl⟩⟩⟩⟩
  | _ => exact iff_of_true ⟨state,rfl⟩ trivial

/-- A line of a known level raises the highest level to at least zero and at most five. -/
lemma level_appendLine {state next : ℤ × Bytes} {line : Json} (h : appendLine lib state line = .ok next) :
    (next.1 ≤ 5 ↔ state.1 ≤ 5) ∧ (0 ≤ next.1 ↔ 0 ≤ state.1 ∨ isArray line = true) := by
  have hsafe := (appendLine_ok_iff lib state line).mp ⟨next,h⟩
  cases line with
  | arr parts =>
    obtain ⟨⟨hlow,hhigh⟩,-⟩ := hsafe
    obtain ⟨name,-,h⟩ := bind_eq_ok_iff.mp h
    obtain ⟨time,-,h⟩ := bind_eq_ok_iff.mp h
    obtain ⟨text,-,h⟩ := bind_eq_ok_iff.mp h
    obtain rfl := Except.ok.inj h
    dsimp only [isArray]
    rw [or_iff_right_of_imp fun _ => rfl,eq_self,iff_true]
    split_ifs <;> omega
  | _ =>
    obtain rfl := Except.ok.inj h
    simp [isArray]

lemma level_lines {lines : List Json} {state next : ℤ × Bytes} (h : lines.foldlM (appendLine lib) state = .ok next) :
    (next.1 ≤ 5 ↔ state.1 ≤ 5) ∧ (0 ≤ next.1 ↔ 0 ≤ state.1 ∨ ∃ line ∈ lines,isArray line = true) := by
  induction lines generalizing state with
  | nil =>
    obtain rfl := Except.ok.inj h
    simp
  | cons line lines ih =>
    rw [List.foldlM_cons] at h
    obtain ⟨middle,hline,h⟩ := bind_eq_ok_iff.mp h
    obtain ⟨hhigh,hlow⟩ := level_appendLine hline
    obtain ⟨hhigh',hlow'⟩ := ih h
    rw [hhigh',hhigh,hlow',hlow,List.exists_mem_cons_iff,or_assoc]
    exact ⟨Iff.rfl,Iff.rfl⟩

/-- All lines are safe, and so is the highest level. -/
def LinesSafe (lib : JsonLib) (request : JObject) : Prop :=
  (∀ line ∈ (linesOf request).getD [],LineSafe lib line) ∧ severityOf lib request ≤ 5 ∧
    (0 ≤ severityOf lib request ∨ ∃ line ∈ (linesOf request).getD [],isArray line = true)

lemma exists_bind_iff {ε α β : Type} {x : Except ε α} {f : α → Except ε β} :
    (∃ b,(x >>= f) = .ok b) ↔ ∃ a,x = .ok a ∧ ∃ b,f a = .ok b := by
  simp only [bind_eq_ok_iff]
  exact ⟨fun ⟨b,a,ha,hb⟩ => ⟨a,ha,b,hb⟩,fun ⟨a,ha,b,hb⟩ => ⟨b,a,ha,hb⟩⟩

lemma lines_ok_iff (lib : JsonLib) (gelf request : JObject) (size : ℕ) :
    (∃ result,(do
      let message ← fullMessage lib gelf request
      let syslog ← atLevel syslogMapping message.2
      return lastMembers message.1 syslog size : Except GelfFault JObject) = .ok result) ↔ LinesSafe lib request := by
  have hlast (message : JObject × ℤ) : (∃ result,(do
      let syslog ← atLevel syslogMapping message.2
      return lastMembers message.1 syslog size : Except GelfFault JObject) = .ok result) ↔
        message.2 ≤ 5 ∧ 0 ≤ message.2 := by
    rw [exists_bind_iff,and_comm,← KnownLevel,← atLevel_ok_iff syslogMapping rfl]
    exact exists_congr fun syslog => and_iff_left ⟨_,rfl⟩
  rw [exists_bind_iff]
  unfold fullMessage LinesSafe
  cases linesOf request with
  | none =>
    simp only [Except.ok.injEq,exists_eq_left',hlast]
    simp
  | some lines =>
    dsimp only [Option.getD_some]
    rw [← exists_foldlM_iff (appendLine_ok_iff lib) lines (severityOf lib request,[])]
    constructor
    · rintro ⟨message,hmessage,hresult⟩
      obtain ⟨next,hnext,hmessage⟩ := bind_eq_ok_iff.mp hmessage
      obtain rfl := Except.ok.inj hmessage
      obtain ⟨hhigh,hlow⟩ := level_lines hnext
      rw [← hhigh,← hlow]
      exact ⟨⟨next,hnext⟩,(hlast _).mp hresult⟩
    · rintro ⟨⟨next,hnext⟩,hlevels⟩
      obtain ⟨hhigh,hlow⟩ := level_lines hnext
      rw [← hhigh,← hlow] at hlevels
      exact ⟨_,bind_eq_ok_iff.mpr ⟨next,hnext,rfl⟩,(hlast _).mpr hlevels⟩

/-! Caller ids. -/

/-- The id has two dashes. The parts that are copied before the application is complete fit their buffers, and the
environment is not terminated behind its one. -/
def CallerFilled (callerId : Bytes) : Prop :=
  callerId.length+1 < 2^31 ∧ ∃ app env rid,callerId = app ++ 45::env ++ 45::rid ∧ 45 ∉ env ∧ 45 ∉ rid ∧
    app.length < callerBufferSize ∧ env.length ≠ callerBufferSize ∧ rid.length < callerBufferSize

section

variable {callerId app env rest rid : Bytes} {n : ℕ}

lemma map_byte_placed (output : Output) (i : ℕ) (bytes : Bytes) : (placed output i bytes).map (·.byte) = bytes := by
  induction bytes generalizing i with
  | nil => rfl
  | cons c bytes ih => rw [placed,List.map_cons,ih]

lemma appWritten_append (a b : List Write) : appWritten (a ++ b) = appWritten a ++ appWritten b := by
  rw [appWritten,List.filter_append,List.map_append,appWritten,appWritten]

lemma appWritten_placed (i : ℕ) (bytes : Bytes) : appWritten (placed .app i bytes) = bytes := by
  rw [appWritten,filter_placed_self,map_byte_placed]

lemma appWritten_placed_of_ne {output : Output} (h : output ≠ .app) (i : ℕ) (bytes : Bytes) :
    appWritten (placed output i bytes) = [] := by
  rw [appWritten,filter_placed_of_ne h,List.map_nil]

lemma appWritten_rid (n : ℕ) (rid : Bytes) (next : Extraction) :
    appWritten ((copyLoop .rid n 0 rid).andThen next).writes = if rid.length ≤ n then appWritten next.writes else [] := by
  have hne : Output.rid ≠ .app := by decide
  rw [copyLoop_andThen]
  split_ifs
  · rw [appWritten_append,appWritten_placed_of_ne hne,List.nil_append]
  · exact appWritten_placed_of_ne hne _ _

lemma appWritten_appEnv (n : ℕ) (app env : Bytes) :
    appWritten ((copyLoop .app n 0 app).andThen (copyLoop .env n 0 env)).writes =
      if app.length ≤ n then app ++ [0] else app.take n := by
  have henv : appWritten (copyLoop .env n 0 env).writes = [] := by
    rw [appWritten,List.map_eq_nil_iff,List.filter_eq_nil_iff]
    intro w hw
    rw [output_of_mem_copyLoop hw]
    decide
  rw [copyLoop_andThen]
  split_ifs
  · rw [appWritten_append,henv,List.append_nil,appWritten_placed]
  · exact appWritten_placed _ _

lemma readApp_ok_iff {writes : List Write} : (∃ app,readApp writes = .ok app) ↔
    (∀ w ∈ writes,w.index < callerBufferSize) ∧ 0 ∈ appWritten writes := by
  unfold readApp
  split_ifs with hfits hmem
  · exact iff_of_true ⟨_,rfl⟩ ⟨hfits,hmem⟩
  · exact iff_of_false nofun fun h => hmem h.2
  · exact iff_of_false nofun fun h => hfits h.1

/-- The last two dashes of an id are where they are. -/
lemma exists_parts_iff {P : Bytes → Bytes → Bytes → Prop} (henv : 45 ∉ env) (hrid : 45 ∉ rid) :
    (∃ app' env' rid',app ++ 45::env ++ 45::rid = app' ++ 45::env' ++ 45::rid' ∧ 45 ∉ env' ∧ 45 ∉ rid' ∧ P app' env' rid') ↔
      P app env rid := by
  constructor
  · rintro ⟨app',env',rid',heq,henv',hrid',h⟩
    obtain ⟨hrest,rfl⟩ := append_cons_inj hrid hrid' heq
    obtain ⟨rfl,rfl⟩ := append_cons_inj henv henv' hrest
    exact h
  · exact fun h => ⟨app,env,rid,rfl,henv,hrid,h⟩

lemma callerApp_ok_iff (hzero : 0 ∉ callerId) : (∃ app,callerApp callerId = .ok app) ↔ CallerFilled callerId := by
  unfold callerApp CallerFilled
  by_cases hlength : callerId.length+1 < 2^31
  · obtain ⟨e,he,-⟩ := extractAppEnvRidInto_eq hlength callerBufferSize
    rw [he,and_iff_right hlength]
    change (∃ app,readApp e.writes = .ok app) ↔ _
    rw [readApp_ok_iff,bounds_extractAppEnvRidInto_iff hlength he]
    rcases dash_cases callerId with hnone | ⟨rest,rid,rfl,hrid⟩
    · rw [extractAppEnvRidInto_of_notMem hlength hnone] at he
      obtain rfl := Except.ok.inj he
      refine iff_of_false (fun h => List.not_mem_nil h.2) ?_
      rintro ⟨app,env,rid,rfl,-⟩
      exact hnone (List.mem_append_right _ List.mem_cons_self)
    rw [extractAppEnvRidInto_append hlength hrid] at he
    obtain rfl := Except.ok.inj he
    rw [appWritten_rid,ridFits_append hrid]
    rcases dash_cases rest with hnone | ⟨app,env,rfl,henv⟩
    · rw [extractAppEnvInto_of_notMem hnone]
      refine iff_of_false (by simp [appWritten]) ?_
      rintro ⟨app,env,rid',heq,-,hrid',-⟩
      obtain ⟨rfl,-⟩ := append_cons_inj hrid hrid' heq
      exact hnone (List.mem_append_right _ List.mem_cons_self)
    · have happ : 0 ∉ app := fun h => hzero (List.mem_append_left _ (List.mem_append_left _ h))
      rw [extractAppEnvInto_append henv,appWritten_appEnv,appEnvFits_append henv,exists_parts_iff henv hrid]
      split_ifs with hle hlong
      · rw [and_iff_left (List.mem_append_right _ List.mem_cons_self)]
        omega
      · exact iff_of_false (fun h => happ (List.mem_of_mem_take h.2)) (by omega)
      · exact iff_of_false (fun h => List.not_mem_nil h.2) (by omega)
  · rw [extractAppEnvRidInto,if_pos (mt toInt32_size_iff.mp hlength)]
    refine iff_of_false ?_ fun h => hlength h.1
    rintro ⟨app,happ⟩
    cases happ

end

lemma zero_notMem_callerIdOf {callerId : Bytes} (h : callerId ∈ callerIdOf lib request) : 0 ∉ callerId := by
  obtain ⟨obj,-,hobj⟩ := Option.bind_eq_some_iff.mp h
  cases obj with
  | null => cases hobj
  | _ => exact Option.some.inj hobj ▸ zero_notMem_cstr _

lemma callerMembers_ok_iff (lib : JsonLib) (gelf request : JObject) :
    (∃ next,callerMembers lib gelf request = .ok next) ↔ ∀ callerId ∈ callerIdOf lib request,CallerFilled callerId := by
  unfold callerMembers
  cases hid : callerIdOf lib request with
  | none => exact iff_of_true ⟨_,rfl⟩ nofun
  | some callerId =>
    rw [exists_bind_iff]
    simp only [Option.mem_some_iff,forall_eq',← callerApp_ok_iff (zero_notMem_callerIdOf hid)]
    exact exists_congr fun app => and_iff_left ⟨_,rfl⟩

/-! The conversion. -/

/-- The request is one of an API: it has a path, and the stream says so of all requests or of those of its module. -/
def OfApi (lib : JsonLib) (info : StreamInfo) (request : JObject) : Prop :=
  ∃ url text module,urlOf request = some url ∧ jsonObjectGetString lib url = some text ∧
    moduleStr (gelfAction lib request) = .ok module ∧
    (info.allRequestsAreApiRequests || info.apiRequests.contains (module.dropWhile (· == 58))) = true

/-- The id that requests of an API get if they have none. -/
def unknownCaller (info : StreamInfo) : Bytes := lit "unknown-" ++ info.env ++ lit "-unknown"

/-- What the conversion of a request takes for granted. -/
structure GelfSafe (lib : JsonLib) (info : StreamInfo) (request : JObject) : Prop where
  action : (gelfAction lib request).length < (maxBufferSize : ℕ)
  host : request.lookup (lit "host") ≠ some .null
  module : (urlOf request).isSome → strchr (gelfAction lib request) 58 ≠ some ((gelfAction lib request).length-1)
  caller : ∀ callerId ∈ callerIdOf lib request,
    (OfApi lib info request → nonEmptyMember lib request (lit "caller_id") ≠ none) → CallerFilled callerId
  unknownCaller : OfApi lib info request → nonEmptyMember lib request (lit "caller_id") = none →
    CallerFilled (cstr (unknownCaller info))
  lines : LinesSafe lib request

lemma length_gelfAction (lib : JsonLib) (request : JObject) :
    (givenAction lib request).length ≤ (gelfAction lib request).length ∧
      (gelfAction lib request).length ≤ (givenAction lib request).length+22 := by
  change _ ≤ (completed (givenAction lib request)).length ∧ (completed (givenAction lib request)).length ≤ _
  generalize givenAction lib request = name
  by_cases hmem : 35 ∈ name
  · by_cases hlast : name.getLast? = some 35
    · rw [completed_of_getLast hlast,List.length_append]
      exact ⟨Nat.le_add_right _ _,Nat.add_le_add_left (by decide) _⟩
    · rw [completed_of_mem hmem hlast]
      exact ⟨le_rfl,Nat.le_add_right _ _⟩
  · by_cases hne : name = []
    · subst hne
      decide
    · rw [completed_of_notMem hne hmem,List.length_append]
      exact ⟨Nat.le_add_right _ _,Nat.add_le_add_left (by decide) _⟩

/-- The scratch buffer grows at once to the largest size, so that only longer actions break it. -/
lemma action_fits_iff (hscratch : scratch ≤ maxBufferSize) :
    (gelfAction lib request).length < (scratchFor lib scratch request : ℕ) ↔
      (gelfAction lib request).length < (maxBufferSize : ℕ) := by
  obtain ⟨hlow,hhigh⟩ := length_gelfAction lib request
  have hmax : (maxBufferSize : ℕ) = 2^25 := by decide
  refine ⟨fun h => h.trans_le (zchunkEnsureSize_le hscratch _),fun h => ?_⟩
  unfold scratchFor
  rw [zchunkEnsureSize_eq,toInt32_of_lt (by omega)]
  split_ifs with hfits
  · unfold sizeOfInt at hfits
    omega
  · exact h

lemma completeAction_ok_iff (hscratch : scratch ≤ maxBufferSize) {action : Bytes} :
    completeAction lib scratch request = .ok action ↔
      (gelfAction lib request).length < (maxBufferSize : ℕ) ∧ gelfAction lib request = action := by
  unfold completeAction
  dsimp only
  split_ifs with h
  · rw [and_iff_right ((action_fits_iff hscratch).mp h),Except.ok.injEq]
  · exact iff_of_false nofun fun haction => h ((action_fits_iff hscratch).mpr haction.1)

lemma hostOf_isSome_iff : (hostOf lib request).isSome ↔ request.lookup (lit "host") ≠ some .null := by
  unfold hostOf
  cases request.lookup (lit "host") with
  | none => simp
  | some obj =>
    cases obj with
    | null => exact iff_of_false nofun (not_not.mpr rfl)
    | _ => exact iff_of_true rfl nofun

lemma lookup_adjusted {action : Bytes} {next : JObject} (h : adjusted lib info action request = .ok next) {name : Bytes}
    (hid : lit "caller_id" ≠ name) (haction : lit "caller_action" ≠ name) : next.lookup name = request.lookup name := by
  unfold adjusted at h
  split at h
  · rw [Except.ok.inj h]
  · obtain ⟨module,-,h⟩ := bind_eq_ok_iff.mp h
    rw [← Except.ok.inj h,lookup_adjustCallerInfo hid haction]

lemma linesSafe_adjusted {action : Bytes} {next : JObject} (h : adjusted lib info action request = .ok next) :
    LinesSafe lib next ↔ LinesSafe lib request := by
  have hlines : linesOf next = linesOf request := by
    rw [linesOf,lookup_adjusted h (by decide) (by decide),linesOf]
  have hseverity : severityOf lib next = severityOf lib request := by
    rw [severityOf,lookup_adjusted h (by decide) (by decide),severityOf]
  rw [LinesSafe,hlines,hseverity,LinesSafe]

lemma adjusted_ok_iff : (∃ next,adjusted lib info (gelfAction lib request) request = .ok next) ↔
    ((urlOf request).isSome → strchr (gelfAction lib request) 58 ≠ some ((gelfAction lib request).length-1)) := by
  have hform : strchr (gelfAction lib request) 58 ≠ some ((gelfAction lib request).length-1) ↔
      (moduleStr (gelfAction lib request)).isOk = true :=
    ((moduleStr_isOk_iff _).trans (moduleWrites_fit_of_normalised (completed_form _))).symm
  rw [hform]
  unfold adjusted
  cases urlOf request with
  | none => exact iff_of_true ⟨_,rfl⟩ nofun
  | some url =>
    rw [imp_iff_right Option.isSome_some]
    cases moduleStr (gelfAction lib request) with
    | error e => exact iff_of_false nofun nofun
    | ok module => exact iff_of_true ⟨_,rfl⟩ rfl

lemma lookup_defaultMember_self (lib : JsonLib) (request : JObject) (key value : Bytes) :
    (defaultMember lib request key value).lookup key =
      if nonEmptyMember lib request key = none then some (.str value) else request.lookup key := by
  unfold defaultMember
  cases nonEmptyMember lib request key with
  | none => rw [if_pos rfl,JObject.lookup_add,if_pos rfl]
  | some text => rw [if_neg nofun]

lemma lookup_callerId_adjustCallerInfo (lib : JsonLib) (request : JObject) {url : Option Bytes} {path module : Bytes}
    (hurl : url = some path)
    (hflag : (info.allRequestsAreApiRequests || info.apiRequests.contains (module.dropWhile (· == 58))) = true) :
    (adjustCallerInfo lib url module request info).lookup (lit "caller_id") =
      if nonEmptyMember lib request (lit "caller_id") = none then some (.str (unknownCaller info))
      else request.lookup (lit "caller_id") := by
  unfold adjustCallerInfo
  rw [hurl]
  dsimp only
  rw [if_pos hflag,lookup_defaultMember _ _ (by decide),lookup_defaultMember_self]
  rfl

/-- The caller id is the one of the request, or the one that requests of an API get. -/
lemma callerIdOf_adjusted {next : JObject} (h : adjusted lib info (gelfAction lib request) request = .ok next) :
    OfApi lib info request ∧ nonEmptyMember lib request (lit "caller_id") = none ∧
        callerIdOf lib next = some (cstr (unknownCaller info)) ∨
      (OfApi lib info request → nonEmptyMember lib request (lit "caller_id") ≠ none) ∧
        callerIdOf lib next = callerIdOf lib request := by
  unfold adjusted at h
  cases hurl : urlOf request with
  | none =>
    rw [hurl] at h
    obtain rfl := Except.ok.inj h
    refine .inr ⟨?_,rfl⟩
    rintro ⟨url,text,module,hsome,-⟩
    exact nomatch hurl.symm.trans hsome
  | some url =>
    rw [hurl] at h
    obtain ⟨module,hmodule,h⟩ := bind_eq_ok_iff.mp h
    replace hmodule := mapError_eq_ok_iff.mp hmodule
    obtain rfl := Except.ok.inj h
    -- only for requests of an API does anything change
    by_cases hapi : OfApi lib info request
    · obtain ⟨url',text,module',hurl',htext,hmodule',hflag⟩ := hapi
      obtain rfl := Option.some.inj (hurl.symm.trans hurl')
      obtain rfl := Except.ok.inj (hmodule.symm.trans hmodule')
      have hlookup := lookup_callerId_adjustCallerInfo lib request htext hflag
      by_cases hnone : nonEmptyMember lib request (lit "caller_id") = none
      · refine .inl ⟨⟨url,text,module,hurl,htext,hmodule,hflag⟩,hnone,?_⟩
        rw [callerIdOf,hlookup,if_pos hnone]
        rfl
      · refine .inr ⟨fun _ => hnone,?_⟩
        rw [callerIdOf,hlookup,if_neg hnone,callerIdOf]
    · refine .inr ⟨fun h => absurd h hapi,?_⟩
      unfold adjustCallerInfo
      cases htext : jsonObjectGetString lib url with
      | none => rfl
      | some text =>
        dsimp only
        rw [if_neg fun hflag => hapi ⟨url,text,module,hurl,htext,hmodule,hflag⟩]

lemma caller_adjusted {next : JObject} (h : adjusted lib info (gelfAction lib request) request = .ok next) :
    (∀ callerId ∈ callerIdOf lib next,CallerFilled callerId) ↔
      (∀ callerId ∈ callerIdOf lib request,
        (OfApi lib info request → nonEmptyMember lib request (lit "caller_id") ≠ none) → CallerFilled callerId) ∧
      (OfApi lib info request → nonEmptyMember lib request (lit "caller_id") = none →
        CallerFilled (cstr (unknownCaller info))) := by
  rcases callerIdOf_adjusted h with ⟨hapi,hnone,hid⟩ | ⟨hown,hid⟩
  · rw [hid]
    simp [hapi,hnone]
  · rw [hid]
    exact ⟨fun hall => ⟨fun callerId hmem _ => hall callerId hmem,fun hapi hnone => absurd hnone (hown hapi)⟩,
      fun hall callerId hmem => hall.1 callerId hmem hown⟩

lemma requestToGelf_ok_iff (lib : JsonLib) (info : StreamInfo) (appEnv : Bytes) (clockTime : ℤ) (size : ℕ)
    (hscratch : scratch ≤ maxBufferSize) (request : JObject) :
    (∃ gelf,requestToGelf lib info appEnv clockTime size scratch request = .ok gelf) ↔ GelfSafe lib info request := by
  constructor
  · rintro ⟨gelf,h⟩
    obtain ⟨action,haction,h⟩ := bind_eq_ok_iff.mp h
    obtain ⟨hfits,rfl⟩ := (completeAction_ok_iff hscratch).mp haction
    obtain ⟨host,hhost,h⟩ := bind_eq_ok_iff.mp h
    obtain ⟨next,hnext,h⟩ := bind_eq_ok_iff.mp h
    obtain ⟨members,hmembers,h⟩ := bind_eq_ok_iff.mp h
    obtain ⟨hcaller,hunknown⟩ := (caller_adjusted hnext).mp ((callerMembers_ok_iff _ _ _).mp ⟨members,hmembers⟩)
    exact ⟨hfits,hostOf_isSome_iff.mp (measured_ok_iff.mp ⟨host,hhost⟩),adjusted_ok_iff.mp ⟨next,hnext⟩,hcaller,hunknown,
      (linesSafe_adjusted hnext).mp ((lines_ok_iff _ _ _ _).mp ⟨gelf,h⟩)⟩
  · intro h
    obtain ⟨host,hhost⟩ := measured_ok_iff.mpr (hostOf_isSome_iff.mpr h.host)
    obtain ⟨next,hnext⟩ := adjusted_ok_iff.mpr h.module
    have hcaller := (caller_adjusted hnext).mpr ⟨h.caller,h.unknownCaller⟩
    obtain ⟨members,hmembers⟩ := (callerMembers_ok_iff lib (requestMembers lib appEnv clockTime
      (gelfMessageNew host (gelfAction lib request)) request) next).mpr hcaller
    obtain ⟨gelf,hgelf⟩ := (lines_ok_iff lib _ next size).mpr ((linesSafe_adjusted hnext).mpr h.lines)
    exact ⟨gelf,bind_eq_ok_iff.mpr ⟨_,(completeAction_ok_iff hscratch).mpr ⟨h.action,rfl⟩,bind_eq_ok_iff.mpr ⟨host,hhost,
      bind_eq_ok_iff.mpr ⟨next,hnext,bind_eq_ok_iff.mpr ⟨members,hmembers,hgelf⟩⟩⟩⟩⟩

/-- No bad read and no write behind a buffer. -/
def ConvertsSafely (lib : JsonLib) (info : StreamInfo) (appEnv : Bytes) (clockTime : ℤ) (size : ℕ) (scratch : Chunk)
    (request : JObject) : Prop :=
  ∀ fault,requestToGelf lib info appEnv clockTime size scratch request ≠ .error fault

/-- An HTTP request with a caller and a warning. -/
def warnedRequest : JObject :=
  [(lit "host",.str (lit "web1")),(lit "action",.str (lit "Shop::Cart#show")),
    (lit "request_info",.obj [(lit "url",.str (lit "/cart"))]),(lit "caller_id",.str (lit "front-production-4f2a")),
    (lit "lines",.arr [.arr [.int 2,.str (lit "10:15:30"),.str (lit "late")]])]

/-- The scratch buffer has no influence on the object that is made. -/
lemma requestToGelf_unique {appEnv : Bytes} {clockTime : ℤ} {size : ℕ} {other : Chunk} {gelf' : JObject}
    (h : requestToGelf lib info appEnv clockTime size scratch request = .ok gelf)
    (h' : requestToGelf lib info appEnv clockTime size other request = .ok gelf') : gelf = gelf' := by
  have haction {scratch : Chunk} {action : Bytes} (h : completeAction lib scratch request = .ok action) :
      action = gelfAction lib request := by
    unfold completeAction at h
    dsimp only at h
    split_ifs at h
    exact (Except.ok.inj h).symm
  obtain ⟨action,hfirst,h⟩ := bind_eq_ok_iff.mp h
  obtain ⟨action',hfirst',h'⟩ := bind_eq_ok_iff.mp h'
  rw [haction hfirst] at h
  rw [haction hfirst'] at h'
  exact Except.ok.inj (h.symm.trans h')

def sampleGelf (request : JObject) : Except GelfFault JObject :=
  requestToGelf JsonLib.blank Exporter.bareInfo (lit "app-env") 1000 2 ⟨4096,by decide⟩ request

/-- A message with one warning. -/
example : (sampleGelf [(lit "lines",.arr [.arr [.int 2,.str (lit "10:15:30"),.str (lit "late")]])]).toOption.map
    (fun gelf => (gelf.lookup (lit "level"),gelf.lookup (lit "full_message"))) =
      some (some (.int 5),some (.str (lit "Warn 10:15:30 late\n"))) := by rfl

end Logjam.Graylog
