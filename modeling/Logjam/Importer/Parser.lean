import Logjam.Importer.Aggregate
import Logjam.Library.Ensures

/-! A parser between two ticks: it files every message with the processor of its database. The
answer of the tracker to a frontend message is taken as given with the message. -/
namespace Logjam.Importer
open Logjam.Library.MergeMap Logjam.Library.Translation

@[ext] structure FrontendStats where
  received : ℕ
  dropped : ℕ
  dropReasons : FeMsgDropReason → ℕ

@[ext] structure ParserState (n : ℕ) where
  processors : ZHash (Processor n)
  feStats : FrontendStats

/-- A message whose body has been decompressed and parsed. -/
structure ParsedMsg where
  stream : Bytes
  topic : Bytes
  request : Json
  tracked : Bool

variable {n : ℕ}

def parserStateNew : ParserState n := ⟨∅,0,0,fun _ => 0⟩

def validDatabaseDate (env : Env n) (date : Bytes) : Bool := 19 ≤ date.length && env.dateWithinDrift date

/-- The name is composed in place: a NUL inside the stream frame ends it early. -/
def databaseName (streamFrame date : Bytes) : Bytes :=
  let name := cstr streamFrame
  if name.length = streamFrame.length then lit "logjam-" ++ name ++ lit "-" ++ date.take 10
  else lit "logjam-" ++ name

/-- The database of a message and its stream, if the stream is known and the date is valid. -/
def processorCreate (env : Env n) (streamFrame : Bytes) (request : Json) :
    Except Fault (Option (Bytes × StreamInfo)) :=
  match env.getStreamInfo (cstr streamFrame) with
  | none => .ok none
  | some info =>
    match jsonObjectObjectGetEx request (lit "started_at") with
    | none => .ok none
    | some v => do
      let date ← jsonString env.json v
      if validDatabaseDate env date then return some (databaseName streamFrame date,info)
      else return none

lemma processorCreate_eq_some {env : Env n} {stream : Bytes} {request : Json} {dbName : Bytes}
    {info : StreamInfo} (h : processorCreate env stream request = .ok (some (dbName,info))) :
    env.getStreamInfo (cstr stream) = some info ∧
      ∃ date, 19 ≤ date.length ∧ dbName = databaseName stream date := by
  unfold processorCreate at h
  cases hi : env.getStreamInfo (cstr stream) with
  | none => simp [hi] at h
  | some i =>
    cases hv : jsonObjectObjectGetEx request (lit "started_at") with
    | none => simp [hi,hv] at h
    | some v =>
      cases hd : jsonString env.json v with
      | error e => simp [hi,hv,hd,bind,Except.bind] at h
      | ok date =>
        simp only [hi,hv,hd,pure,Except.pure,bind,Except.bind] at h
        by_cases hvalid : validDatabaseDate env date = true
        · rw [if_pos hvalid] at h
          simp only [Except.ok.injEq,Option.some.injEq,Prod.mk.injEq] at h
          simp only [validDatabaseDate,Bool.and_eq_true,decide_eq_true_eq] at hvalid
          exact ⟨congrArg some h.2,date,hvalid.1,h.1.symm⟩
        · simp [if_neg hvalid] at h

/-- Run a handler on the processor of a database, which is created on first use. -/
def withProcessor (state : ParserState n) (dbName : Bytes)
    (handler : Processor n → Except Fault (Processor n)) : Except Fault (ParserState n) := do
  let processor := (state.processors[dbName]?).getD processorNew
  let processor ← handler { processor with requestCount := processor.requestCount+1 }
  return { state with processors := state.processors.insert dbName processor }

def FrontendStats.record (stats : FrontendStats) (reason : FeMsgDropReason) : FrontendStats where
  received := stats.received+1
  dropped := if reason = .accepted then stats.dropped else stats.dropped+1
  dropReasons := Function.update stats.dropReasons reason (stats.dropReasons reason+1)

/-- Frontend handlers report a reason, which the parser counts. -/
def withFrontendProcessor (state : ParserState n) (dbName : Bytes)
    (handler : Processor n → Except Fault (FeMsgDropReason × Processor n)) :
    Except Fault (ParserState n) := do
  let processor := (state.processors[dbName]?).getD processorNew
  let (reason,processor) ← handler { processor with requestCount := processor.requestCount+1 }
  return ⟨state.processors.insert dbName processor,state.feStats.record reason⟩

def jsonMembers : Json → JObject
  | .obj members => members
  | _ => []

/-- The handlers, with the settings that the processor of the database has. -/
def handleMsg (env : Env n) (dbName : Bytes) (info : StreamInfo) (state : ParserState n) (msg : ParsedMsg) :
    Except Fault (ParserState n) :=
  let request := jsonMembers msg.request
  if (lit "logs").isPrefixOf msg.topic then
    withProcessor state dbName fun p => processorAddRequest env info p request
  else if (lit "javascript").isPrefixOf msg.topic then
    withProcessor state dbName fun p => processorAddJsException env p request
  else if (lit "events").isPrefixOf msg.topic then
    withProcessor state dbName fun p => processorAddEvent env p request
  else if (lit "frontend.page").isPrefixOf msg.topic then
    withFrontendProcessor state dbName fun p => processorAddFrontendData env p request msg.tracked
  else if (lit "frontend.ajax").isPrefixOf msg.topic then
    withFrontendProcessor state dbName fun p => processorAddAjaxData env p request msg.tracked
  else withProcessor state dbName fun p => .ok p

/-- A message that is handled with the settings of its own stream, as it is if its processor was created for
that stream. -/
def forwardRequest (env : Env n) (state : ParserState n) (msg : ParsedMsg) : Except Fault (ParserState n) := do
  match ← processorCreate env msg.stream msg.request with
  | none => return state
  | some (dbName,info) => handleMsg env dbName info state msg

/-- One parser that processes a list of messages in order, starting after a tick. -/
def parseAll (env : Env n) (msgs : List ParsedMsg) : Except Fault (ParserState n) :=
  msgs.foldlM (forwardRequest env) parserStateNew

/-! Streams. A processor keeps the stream of the message it was created for, and its settings hold for all messages
that go to the same database. -/

structure Parser (n : ℕ) where
  state : ParserState n
  streams : ZHash Bytes

def parserNew : Parser n := ⟨parserStateNew,∅⟩

/-- The stream of the processor of a database, which is created on first use. -/
def streamOf (streams : ZHash Bytes) (dbName : Bytes) (msg : ParsedMsg) : Bytes :=
  (streams[dbName]?).getD (cstr msg.stream)

/-- The settings of that stream. A stream that is kept is configured. -/
def settingsOf (env : Env n) (streams : ZHash Bytes) (dbName : Bytes) (own : StreamInfo) (msg : ParsedMsg) : StreamInfo :=
  (env.getStreamInfo (streamOf streams dbName msg)).getD own

/-- The part of parse_msg_and_forward_interesting_requests that follows the JSON parser. -/
def parseMsg (env : Env n) (parser : Parser n) (msg : ParsedMsg) : Except Fault (Parser n) := do
  match ← processorCreate env msg.stream msg.request with
  | none => return parser
  | some (dbName,info) =>
    let state ← handleMsg env dbName (settingsOf env parser.streams dbName info msg) parser.state msg
    return ⟨state,parser.streams.insert dbName (streamOf parser.streams dbName msg)⟩

def parseMsgs (env : Env n) (msgs : List ParsedMsg) : Except Fault (ParserState n) :=
  (msgs.foldlM (parseMsg env) parserNew).map Parser.state

/-- Messages that go to the same database are of streams with the same settings. -/
def SettingsAgree (env : Env n) (msgs : List ParsedMsg) : Prop :=
  ∀ m ∈ msgs,∀ other ∈ msgs,∀ dbName info otherInfo,processorCreate env m.stream m.request = .ok (some (dbName,info)) →
    processorCreate env other.stream other.request = .ok (some (dbName,otherInfo)) → info = otherInfo

section Streams
variable {env : Env n} {msgs : List ParsedMsg}

lemma SettingsAgree.mono {part : List ParsedMsg} (h : SettingsAgree env msgs) (hpart : ∀ m ∈ part,m ∈ msgs) :
    SettingsAgree env part := fun m hm other hother => h m (hpart m hm) other (hpart other hother)

lemma append_take_inj {a b date other : Bytes} (hdate : 10 ≤ date.length) (hother : 10 ≤ other.length)
    (h : a ++ date.take 10 = b ++ other.take 10) : a = b :=
  List.append_inj_left' h (by rw [List.length_take,List.length_take]; omega)

/-- Databases are mixed up only by stream frames with a NUL. -/
theorem settingsAgree_of_noNul (h : ∀ m ∈ msgs,0 ∉ m.stream) : SettingsAgree env msgs := by
  intro m hm other hother dbName info otherInfo hm' hother'
  obtain ⟨hinfo,date,hdate,hname⟩ := processorCreate_eq_some hm'
  obtain ⟨hotherInfo,otherDate,hotherDate,hotherName⟩ := processorCreate_eq_some hother'
  have heq := hname.symm.trans hotherName
  simp only [databaseName,cstr_of_notMem (h m hm),cstr_of_notMem (h other hother),if_true] at heq
  have hstream := append_take_inj (by omega) (by omega) heq
  rw [List.append_cancel_left (List.append_cancel_right hstream),hotherInfo] at hinfo
  exact (Option.some.inj hinfo).symm

/-- Every stream that is kept is that of a message for the database. -/
def Remembers (env : Env n) (msgs : List ParsedMsg) (streams : ZHash Bytes) : Prop :=
  ∀ dbName stream,streams[dbName]? = some stream → ∃ m ∈ msgs,∃ info,
    processorCreate env m.stream m.request = .ok (some (dbName,info)) ∧ env.getStreamInfo stream = some info

lemma Remembers.insert {streams : ZHash Bytes} (h : Remembers env msgs streams) {m : ParsedMsg} (hm : m ∈ msgs)
    {dbName stream : Bytes} {info : StreamInfo} (hcreate : processorCreate env m.stream m.request = .ok (some (dbName,info)))
    (hinfo : env.getStreamInfo stream = some info) : Remembers env msgs (streams.insert dbName stream) := by
  intro name other hother
  rw [Std.ExtTreeMap.getElem?_insert] at hother
  split_ifs at hother with hname
  · obtain rfl := Option.some.inj hother
    obtain rfl := Std.LawfulEqOrd.eq_of_compare hname
    exact ⟨m,hm,info,hcreate,hinfo⟩
  · exact h name other hother

/-- The stream of the processor has the settings of the message. -/
lemma Remembers.getStreamInfo {streams : ZHash Bytes} (h : Remembers env msgs streams) (hagree : SettingsAgree env msgs)
    {m : ParsedMsg} (hm : m ∈ msgs) {dbName : Bytes} {info : StreamInfo}
    (hcreate : processorCreate env m.stream m.request = .ok (some (dbName,info))) :
    env.getStreamInfo (streamOf streams dbName m) = some info := by
  unfold streamOf
  cases hstream : streams[dbName]? with
  | none => exact (processorCreate_eq_some hcreate).1
  | some stream =>
    obtain ⟨other,hother,otherInfo,hotherCreate,hknown⟩ := h dbName stream hstream
    rw [hagree m hm other hother dbName info otherInfo hcreate hotherCreate]
    exact hknown

/-- The step of a parser whose settings agree is that with the settings of the message. -/
lemma parseMsg_eq (hagree : SettingsAgree env msgs) {parser : Parser n} (h : Remembers env msgs parser.streams)
    {m : ParsedMsg} (hm : m ∈ msgs) :
    (parseMsg env parser m).map Parser.state = forwardRequest env parser.state m ∧
      ∀ next,parseMsg env parser m = .ok next → Remembers env msgs next.streams := by
  unfold parseMsg forwardRequest
  cases htarget : processorCreate env m.stream m.request with
  | error e => exact ⟨rfl,nofun⟩
  | ok target =>
    cases target with
    | none => exact ⟨rfl,fun next hnext => Except.ok.inj hnext ▸ h⟩
    | some t =>
      obtain ⟨dbName,info⟩ := t
      have hinfo := h.getStreamInfo hagree hm htarget
      simp only [bind,Except.bind,settingsOf,hinfo,Option.getD_some]
      cases handleMsg env dbName info parser.state m with
      | error e => exact ⟨rfl,nofun⟩
      | ok state =>
        refine ⟨rfl,fun next hnext => ?_⟩
        exact Except.ok.inj hnext ▸ h.insert hm htarget hinfo

/-- Under this condition a parser is one that handles every message with the settings of its own stream. -/
theorem parseMsgs_eq (hagree : SettingsAgree env msgs) : parseMsgs env msgs = parseAll env msgs := by
  have hfold : ∀ (part : List ParsedMsg) (parser : Parser n),(∀ m ∈ part,m ∈ msgs) → Remembers env msgs parser.streams →
      (part.foldlM (parseMsg env) parser).map Parser.state = part.foldlM (forwardRequest env) parser.state := by
    intro part
    induction part with
    | nil => exact fun parser _ _ => rfl
    | cons m part ih =>
      intro parser hpart hstreams
      rw [List.forall_mem_cons] at hpart
      obtain ⟨hstep,hnext⟩ := parseMsg_eq hagree hstreams hpart.1
      rw [List.foldlM_cons,List.foldlM_cons,← hstep]
      cases hparse : parseMsg env parser m with
      | error e => rfl
      | ok next => exact ih next hpart.2 (hnext next hparse)
  refine hfold msgs parserNew (fun m hm => hm) fun dbName stream hstream => ?_
  rw [parserNew,Std.ExtTreeMap.getElem?_empty] at hstream
  cases hstream

end Streams

/-- The parser gets through the message without running into a fault. -/
def Accepted (env : Env n) (msg : ParsedMsg) : Prop :=
  ∃ state, forwardRequest env parserStateNew msg = .ok state

instance (env : Env n) (msg : ParsedMsg) : Decidable (Accepted env msg) :=
  match h : forwardRequest env parserStateNew msg with
  | .ok state => isTrue ⟨state,h⟩
  | .error _ => isFalse fun ⟨_,hs⟩ => by rw [h] at hs; cases hs

instance : Zero FrontendStats := ⟨⟨0,0,fun _ => 0⟩⟩
instance : Add FrontendStats := ⟨fun a b =>
  ⟨a.received+b.received,a.dropped+b.dropped,a.dropReasons+b.dropReasons⟩⟩

instance : AddCommMonoid FrontendStats where
  add_assoc _ _ _ := FrontendStats.ext (add_assoc _ _ _) (add_assoc _ _ _) (add_assoc _ _ _)
  zero_add _ := FrontendStats.ext (zero_add _) (zero_add _) (zero_add _)
  add_zero _ := FrontendStats.ext (add_zero _) (add_zero _) (add_zero _)
  add_comm _ _ := FrontendStats.ext (add_comm _ _) (add_comm _ _) (add_comm _ _)
  nsmul := nsmulRec

instance : Zero (ParserState n) := ⟨parserStateNew⟩
instance : Add (ParserState n) := ⟨fun a b => ⟨a.processors+b.processors,a.feStats+b.feStats⟩⟩

instance : AddCommMonoid (ParserState n) where
  add_assoc _ _ _ := ParserState.ext (add_assoc _ _ _) (add_assoc _ _ _)
  zero_add _ := ParserState.ext (zero_add _) (zero_add _)
  add_zero _ := ParserState.ext (add_zero _) (add_zero _)
  add_comm _ _ := ParserState.ext (add_comm _ _) (add_comm _ _)
  nsmul := nsmulRec

@[simp] lemma ParserState.zero_processors : (0 : ParserState n).processors = 0 := rfl
@[simp] lemma ParserState.add_processors (a b : ParserState n) :
    (a+b).processors = a.processors+b.processors := rfl

lemma record_eq_add (stats : FrontendStats) (reason : FeMsgDropReason) :
    stats.record reason = stats+⟨1,if reason = .accepted then 0 else 1,Pi.single reason 1⟩ := by
  apply FrontendStats.ext
  · rfl
  · change (if reason = .accepted then stats.dropped else stats.dropped+1) =
      stats.dropped+if reason = .accepted then 0 else 1
    split <;> rfl
  · exact update_succ stats.dropReasons reason

/-- A handler that adds to the processor of one database adds to the parser state, if what it
returns is stored accordingly. -/
lemma isTranslation_store {α : Type} [AddAction (Processor n) α] (dbName : Bytes)
    {handler : Processor n → Except Fault α} {store : ParserState n → α → ParserState n}
    (h : IsTranslation handler)
    (hstore : ∀ s r, store s ((s.processors[dbName]?).getD 0 +ᵥ r) = s+store 0 r) :
    IsTranslation fun s : ParserState n => do
      let processor := (s.processors[dbName]?).getD processorNew
      let r ← handler { processor with requestCount := processor.requestCount+1 }
      return store s r := by
  intro s
  have hs := (isShift_requestCount 1).trans h ((s.processors[dbName]?).getD processorNew)
  have hz : (((0 : ParserState n).processors[dbName]?).getD processorNew) = (0 : Processor n) := by
    rw [ParserState.zero_processors]
    exact congrArg (Option.getD · processorNew) Std.ExtTreeMap.getElem?_empty
  simp only at hs ⊢
  rw [hs,hz]
  cases handler { (0 : Processor n) with requestCount := (0 : Processor n).requestCount+1 } with
  | error e => rfl
  | ok r => exact congrArg Except.ok (hstore s r)

theorem withProcessor_isTranslation (dbName : Bytes) {handler : Processor n → Except Fault (Processor n)}
    (h : IsTranslation handler) : IsTranslation (fun s => withProcessor s dbName handler) :=
  isTranslation_store dbName h fun s d =>
    ParserState.ext (insert_getD_add s.processors dbName d) (add_zero _).symm

theorem withFrontendProcessor_isTranslation (dbName : Bytes)
    {handler : Processor n → Except Fault (FeMsgDropReason × Processor n)}
    (h : IsTranslation handler) : IsTranslation (fun s => withFrontendProcessor s dbName handler) := by
  refine isTranslation_store dbName h fun s r =>
    ParserState.ext (insert_getD_add s.processors dbName r.2) ?_
  change s.feStats.record r.1 = s.feStats+(0 : FrontendStats).record r.1
  rw [record_eq_add,record_eq_add,zero_add]

/-- Whatever the message, the parser adds to its state what the message alone amounts to. -/
theorem forwardRequest_isTranslation (env : Env n) (msg : ParsedMsg) :
    IsTranslation (fun s => forwardRequest env s msg) := by
  unfold forwardRequest
  apply isTranslation_bind
  intro target
  cases target with
  | none => exact isShift_id.ok
  | some t =>
    unfold handleMsg
    apply IsTranslation.ite (withProcessor_isTranslation _ (processorAddRequest_isTranslation _ _ _))
    apply IsTranslation.ite (withProcessor_isTranslation _ (processorAddJsException_isTranslation _ _))
    apply IsTranslation.ite (withProcessor_isTranslation _ (processorAddEvent_isTranslation _ _))
    apply IsTranslation.ite
      (withFrontendProcessor_isTranslation _ (processorAddFrontendData_isTranslation _ _ _))
    apply IsTranslation.ite
      (withFrontendProcessor_isTranslation _ (processorAddAjaxData_isTranslation _ _ _))
    exact withProcessor_isTranslation _ isShift_id.ok

/-- What a message adds to the state of the parser that processes it. -/
def contribution (env : Env n) (msg : ParsedMsg) : ParserState n :=
  increment fun s => forwardRequest env s msg

/-- A parser collects the sum of the contributions of its messages. -/
theorem parseAll_eq_sum (env : Env n) (msgs : List ParsedMsg) (h : ∀ m ∈ msgs, Accepted env m) :
    parseAll env msgs = .ok (msgs.map (contribution env)).sum := by
  have hs := foldlM_eq_ok (fun m => forwardRequest_isTranslation env m) msgs h 0
  rw [zero_add] at hs
  exact hs

lemma accepted_of_parseAll {env : Env n} {msgs : List ParsedMsg} {state : ParserState n}
    (h : parseAll env msgs = .ok state) : ∀ m ∈ msgs, Accepted env m :=
  exists_of_foldlM_eq_ok (fun m => forwardRequest_isTranslation env m) h

/-- What holds of the contributions of the messages, and is kept by merging, holds of all processors. -/
theorem parseAll_allValues {env : Env n} {P : Processor n → Prop} (hadd : ∀ p q, P p → P q → P (p+q))
    {msgs : List ParsedMsg} (hmsg : ∀ m ∈ msgs, AllValues P (contribution env m).processors) {state : ParserState n}
    (h : parseAll env msgs = .ok state) : AllValues P state.processors := by
  rw [parseAll_eq_sum env msgs (accepted_of_parseAll h)] at h
  obtain rfl := Except.ok.inj h
  clear h
  induction msgs with
  | nil => exact allValues_zero
  | cons m msgs ih =>
    rw [List.forall_mem_cons] at hmsg
    rw [List.map_cons,List.sum_cons,ParserState.add_processors]
    exact hmsg.1.add hadd (ih hmsg.2)

/-! Whatever settings a message is handled with, it contributes to the parser what it does in an importer all of
whose streams have these settings. -/

def Env.withSettings (env : Env n) (info : StreamInfo) : Env n :=
  { env with getStreamInfo := fun stream => (env.getStreamInfo stream).map fun _ => info }

section Settings
variable {env : Env n} {info : StreamInfo} {msg : ParsedMsg}

lemma processorCreate_withSettings (env : Env n) (info : StreamInfo) (stream : Bytes) (request : Json) :
    processorCreate (env.withSettings info) stream request =
      (processorCreate env stream request).map (Option.map fun target => (target.1,info)) := by
  unfold processorCreate
  rw [show (env.withSettings info).getStreamInfo (cstr stream) = (env.getStreamInfo (cstr stream)).map fun _ => info from rfl]
  cases env.getStreamInfo (cstr stream) with
  | none => rfl
  | some own =>
    cases jsonObjectObjectGetEx request (lit "started_at") with
    | none => rfl
    | some v =>
      dsimp only [Option.map_some]
      rw [show (env.withSettings info).json = env.json from rfl]
      cases jsonString env.json v with
      | error e => rfl
      | ok date =>
        simp only [bind,Except.bind]
        rw [show validDatabaseDate (env.withSettings info) date = validDatabaseDate env date from rfl]
        split_ifs <;> rfl

lemma handleMsg_withSettings (env : Env n) (info : StreamInfo) (dbName : Bytes) (state : ParserState n) (msg : ParsedMsg) :
    handleMsg (env.withSettings info) dbName info state msg = handleMsg env dbName info state msg := rfl

/-- The settings are those of a configured stream. -/
def Env.IsSettings (env : Env n) (info : StreamInfo) : Prop := ∃ stream,env.getStreamInfo stream = some info

lemma isSettings_settingsOf {streams : ZHash Bytes} {dbName : Bytes} {own : StreamInfo} (h : env.IsSettings own)
    (msg : ParsedMsg) : env.IsSettings (settingsOf env streams dbName own msg) := by
  unfold settingsOf
  cases hinfo : env.getStreamInfo (streamOf streams dbName msg) with
  | none => exact h
  | some info => exact ⟨_,hinfo⟩

/-- A message of an unknown stream or without a valid date is skipped, whatever the settings. -/
lemma forwardRequest_unknown (h : processorCreate env msg.stream msg.request = .ok none) (info : StreamInfo)
    (state : ParserState n) : forwardRequest (env.withSettings info) state msg = .ok state := by
  unfold forwardRequest
  rw [processorCreate_withSettings,h]
  rfl

/-- The step of a parser is that of an importer with the settings of some stream. -/
lemma parseMsg_state (env : Env n) (parser : Parser n) (msg : ParsedMsg) :
    processorCreate env msg.stream msg.request = .ok none ∧ parseMsg env parser msg = .ok parser ∨
      ∃ info,env.IsSettings info ∧
        (parseMsg env parser msg).map Parser.state = forwardRequest (env.withSettings info) parser.state msg := by
  unfold parseMsg forwardRequest
  cases htarget : processorCreate env msg.stream msg.request with
  | error e =>
    -- the stream is known before the date is looked at
    refine .inr ?_
    cases hinfo : env.getStreamInfo (cstr msg.stream) with
    | none =>
      rw [processorCreate,hinfo] at htarget
      cases htarget
    | some own =>
      refine ⟨own,⟨_,hinfo⟩,?_⟩
      rw [processorCreate_withSettings,htarget]
      rfl
  | ok target =>
    cases target with
    | none => exact .inl ⟨rfl,rfl⟩
    | some target =>
      obtain ⟨dbName,own⟩ := target
      refine .inr ⟨settingsOf env parser.streams dbName own msg,isSettings_settingsOf ⟨_,(processorCreate_eq_some htarget).1⟩ msg,?_⟩
      rw [processorCreate_withSettings,htarget]
      simp only [bind,Except.bind,Except.map,Option.map_some,handleMsg_withSettings]
      cases handleMsg env dbName (settingsOf env parser.streams dbName own msg) parser.state msg <;> rfl

/-- What a message may add to the state of a parser. -/
def Contributes (env : Env n) (msg : ParsedMsg) (c : ParserState n) : Prop :=
  ∃ info,forwardRequest (env.withSettings info) 0 msg = .ok c

lemma Contributes.cases {c : ParserState n} (h : Contributes env msg c) :
    c = 0 ∨ ∃ dbName info,handleMsg env dbName info 0 msg = .ok c := by
  obtain ⟨info,h⟩ := h
  obtain ⟨target,htarget,h⟩ := Library.bind_eq_ok_iff.mp h
  cases target with
  | none => exact .inl (Except.ok.inj h).symm
  | some target => exact .inr ⟨target.1,target.2,h⟩

lemma parseMsg_contributes {parser next : Parser n} (h : parseMsg env parser msg = .ok next) :
    ∃ c,Contributes env msg c ∧ next.state = parser.state+c := by
  rcases parseMsg_state env parser msg with ⟨hunknown,hskip⟩ | ⟨info,-,hstate⟩
  · obtain rfl := Except.ok.inj (hskip.symm.trans h)
    exact ⟨0,⟨⟨[],none,false,[]⟩,forwardRequest_unknown hunknown _ _⟩,(add_zero _).symm⟩
  · rw [h] at hstate
    have htranslation := forwardRequest_isTranslation (env.withSettings info) msg
    obtain ⟨c,hc⟩ := htranslation.exists_of_eq_ok hstate.symm
    have hsum := htranslation parser.state
    simp only at hc hsum
    rw [hc,← hstate] at hsum
    exact ⟨c,⟨info,hc⟩,Except.ok.inj hsum⟩

lemma foldlM_parseMsg_eq_sum {msgs : List ParsedMsg} {parser last : Parser n} (h : msgs.foldlM (parseMsg env) parser = .ok last) :
    ∃ contributions,List.Forall₂ (Contributes env) msgs contributions ∧ last.state = parser.state+contributions.sum := by
  induction msgs generalizing parser with
  | nil =>
    obtain rfl := Except.ok.inj h
    exact ⟨[],.nil,(add_zero _).symm⟩
  | cons m msgs ih =>
    rw [List.foldlM_cons] at h
    obtain ⟨next,hnext,hlast⟩ := Library.bind_eq_ok_iff.mp h
    obtain ⟨c,hc,hstate⟩ := parseMsg_contributes hnext
    obtain ⟨rest,hrest,hsum⟩ := ih hlast
    exact ⟨c::rest,.cons hc hrest,by rw [hsum,hstate,List.sum_cons,add_assoc]⟩

/-- A parser collects a sum of contributions, one of every message. -/
theorem parseMsgs_eq_sum {msgs : List ParsedMsg} {state : ParserState n} (h : parseMsgs env msgs = .ok state) :
    ∃ contributions,List.Forall₂ (Contributes env) msgs contributions ∧ state = contributions.sum := by
  unfold parseMsgs at h
  cases hlast : msgs.foldlM (parseMsg env) parserNew with
  | error e =>
    rw [hlast] at h
    cases h
  | ok last =>
    rw [hlast] at h
    obtain rfl := Except.ok.inj h
    obtain ⟨contributions,hall,hsum⟩ := foldlM_parseMsg_eq_sum hlast
    exact ⟨contributions,hall,hsum.trans (zero_add _)⟩

/-- What holds of the processor of a single message, and is kept by merging, holds of all processors. -/
theorem parseMsgs_allValues {P : Processor n → Prop} (hadd : ∀ p q,P p → P q → P (p+q)) {msgs : List ParsedMsg}
    (hmsg : ∀ m ∈ msgs,∀ c,Contributes env m c → AllValues P c.processors) {state : ParserState n}
    (h : parseMsgs env msgs = .ok state) : AllValues P state.processors := by
  obtain ⟨contributions,hall,rfl⟩ := parseMsgs_eq_sum h
  clear h
  induction hall with
  | nil => exact allValues_zero
  | cons hc _ ih =>
    rw [List.forall_mem_cons] at hmsg
    rw [List.sum_cons,ParserState.add_processors]
    exact (hmsg.1 _ hc).add hadd (ih hmsg.2)

/-- The parser gets through the message with the settings of any stream. -/
def Processable (env : Env n) (msg : ParsedMsg) : Prop := ∀ info,env.IsSettings info → Accepted (env.withSettings info) msg

lemma parseMsg_isOk (h : Processable env msg) (parser : Parser n) : ∃ next,parseMsg env parser msg = .ok next := by
  rcases parseMsg_state env parser msg with ⟨-,hskip⟩ | ⟨info,hinfo,hstate⟩
  · exact ⟨parser,hskip⟩
  · rw [(forwardRequest_isTranslation (env.withSettings info) msg).eq_ok (h info hinfo)] at hstate
    cases hnext : parseMsg env parser msg with
    | error e =>
      rw [hnext] at hstate
      cases hstate
    | ok next => exact ⟨next,rfl⟩

/-- A parser fails on account of a message that it cannot process. -/
lemma parseMsgs_isOk {msgs : List ParsedMsg} (h : ∀ m ∈ msgs,Processable env m) : ∃ state,parseMsgs env msgs = .ok state := by
  have hfold : ∀ (msgs : List ParsedMsg) (parser : Parser n),(∀ m ∈ msgs,Processable env m) →
      ∃ last,msgs.foldlM (parseMsg env) parser = .ok last := by
    intro msgs
    induction msgs with
    | nil => exact fun parser _ => ⟨parser,rfl⟩
    | cons m msgs ih =>
      intro parser h
      rw [List.forall_mem_cons] at h
      obtain ⟨next,hnext⟩ := parseMsg_isOk h.1 parser
      obtain ⟨last,hlast⟩ := ih next h.2
      rw [List.foldlM_cons,hnext]
      exact ⟨last,hlast⟩
  obtain ⟨last,hlast⟩ := hfold msgs parserNew h
  exact ⟨last.state,by rw [parseMsgs,hlast]; rfl⟩

end Settings

end Logjam.Importer
