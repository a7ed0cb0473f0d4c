import Logjam.Library.Ensures
import Logjam.Basic.Decimal
import Logjam.LiveStream.Server

/-! The goroutines of the live stream server. Readers, the ZeroMQ handler, the dispatcher and the
writers take turns in any order; the dispatcher handles one message at a time. -/
namespace Logjam.LiveStream
open Library
open Logjam.Importer (ZHash)

/-- The local variables of wsReader. -/
inductive Reader
  | absent
  | reading (appEnv channelName : Bytes) (writerStarted : Bool)
  | finished

/-- What nextChannelName hands out. -/
structure Naming where
  name : ReaderId → Bytes
  injective : Function.Injective name
  ne_nil : ∀ r, name r ≠ []

structure Server where
  apps : ZHash AppInfo
  channels : Channels
  wsChannel : List WsMsg
  zmqChannel : List ZmqMsg
  readers : ReaderId → Reader

def Server.initial : Server := ⟨∅,fun _ => ⟨[],false⟩,[],[],fun _ => .absent⟩

def queueCapacity : ℕ := 10000

inductive Event
  | connect (r : ReaderId)
  | readText (r : ReaderId) (bytes : Bytes)
  | hangUp (r : ReaderId)
  | receive (msg : List Bytes)
  | dispatchWs
  | dispatchZmq
  | write (r : ReaderId)

def Server.enqueueWs (s : Server) (r : ReaderId) (reader : Reader) (msg : WsMsg) : Server :=
  { s with wsChannel := s.wsChannel ++ [msg], readers := Function.update s.readers r reader }

/-- One step of one goroutine, with the web socket message the dispatcher has handled in it. A
goroutine that finds a channel full waits, so its step does not happen. -/
def step (names : Naming) (json : GoJson) (s : Server) : Event → Except Panic (Server × List WsMsg)
  | .connect r => match s.readers r with
    | .absent => .ok ({ s with readers := Function.update s.readers r (.reading [] [] false) },[])
    | _ => .ok (s,[])
  | .readText r bytes => match s.readers r with
    | .reading _ _ false =>
      if s.wsChannel.length < queueCapacity then
        .ok (s.enqueueWs r (.reading bytes (names.name r) true) ⟨.subscribeMsg,names.name r,bytes,r⟩,[])
      else .ok (s,[])
    | _ => .ok (s,[])
  | .hangUp r => match s.readers r with
    | .reading appEnv channelName _ =>
      if s.wsChannel.length < queueCapacity then
        .ok (s.enqueueWs r .finished ⟨.unsubscribeMsg,channelName,appEnv,r⟩,[])
      else .ok (s,[])
    | _ => .ok (s,[])
  | .receive msg => match zmqMsgHandler msg with
    | some msg =>
      if s.zmqChannel.length < queueCapacity then .ok ({ s with zmqChannel := s.zmqChannel ++ [msg] },[])
      else .ok (s,[])
    | none => .ok (s,[])
  | .dispatchWs => match s.wsChannel with
    | [] => .ok (s,[])
    | msg::rest => do
      let (apps,channels) ← handleWebSocketMsg s.apps s.channels msg
      return ({ s with apps, channels, wsChannel := rest },[msg])
  | .dispatchZmq => match s.zmqChannel with
    | [] => .ok (s,[])
    | msg::rest => do
      let (apps,channels) ← handleZeromqMsg json s.apps s.channels msg
      return ({ s with apps, channels, zmqChannel := rest },[])
  | .write r =>
    let chan := { s.channels r with buffer := (s.channels r).buffer.tail }
    .ok ({ s with channels := Function.update s.channels r chan },[])

/-- The state after the events and the web socket messages handled on the way. -/
def run (names : Naming) (json : GoJson) (events : List Event) : Except Panic (Server × List WsMsg) :=
  events.foldlM (fun state event => do
    let (s,handled) ← step names json state.1 event
    return (s,state.2 ++ handled)) (Server.initial,[])

/-- The messages one reader has sent so far: at most one subscription, and one last message with
the variables of the reader, which are empty if it has never subscribed. -/
inductive Sent (names : Naming) (r : ReaderId) : Reader → List WsMsg → Prop
  | absent : Sent names r .absent []
  | connected : Sent names r (.reading [] [] false) []
  | subscribed (app : Bytes) : Sent names r (.reading app (names.name r) true) [⟨.subscribeMsg,names.name r,app,r⟩]
  | left : Sent names r .finished [⟨.unsubscribeMsg,[],[],r⟩]
  | unsubscribed (app : Bytes) : Sent names r .finished
      [⟨.subscribeMsg,names.name r,app,r⟩,⟨.unsubscribeMsg,names.name r,app,r⟩]

def messagesOf (r : ReaderId) (messages : List WsMsg) : List WsMsg := messages.filter (·.channel = r)

/-- No message that closes the channel of the reader is among the handled ones. -/
def NotClosing (handled : List WsMsg) (r : ReaderId) : Prop :=
  ∀ m ∈ handled, m.channel = r → m.msgType = .subscribeMsg

/-- What has been handled and what is still in the queue are together what the readers have sent;
the dispatcher's state reflects what has been handled. -/
structure Inv (names : Naming) (s : Server) (handled : List WsMsg) : Prop where
  sent : ∀ r, Sent names r (s.readers r) (messagesOf r (handled ++ s.wsChannel))
  isOpen : ∀ r, (s.channels r).closed = false ↔ NotClosing handled r
  registered : ∀ app name r, (getApp s.apps app).channels[name]? = some r ↔
    ⟨.subscribeMsg,name,app,r⟩ ∈ handled ∧ NotClosing handled r

variable {names : Naming} {json : GoJson} {s : Server} {handled : List WsMsg} {r : ReaderId}

lemma mem_messagesOf {messages : List WsMsg} {m : WsMsg} : m ∈ messagesOf r messages ↔ m ∈ messages ∧ m.channel = r := by
  simp [messagesOf]

lemma messagesOf_append (a b : List WsMsg) : messagesOf r (a ++ b) = messagesOf r a ++ messagesOf r b :=
  List.filter_append ..

/-! Readers. -/

lemma Sent.readText {app name bytes : Bytes} {sent : List WsMsg} (h : Sent names r (.reading app name false) sent) :
    Sent names r (.reading bytes (names.name r) true) (sent ++ [⟨.subscribeMsg,names.name r,bytes,r⟩]) := by
  cases h
  exact .subscribed bytes

lemma Sent.hangUp {app name : Bytes} {started : Bool} {sent : List WsMsg}
    (h : Sent names r (.reading app name started) sent) :
    Sent names r .finished (sent ++ [⟨.unsubscribeMsg,name,app,r⟩]) := by
  cases h with
  | connected => exact .left
  | subscribed => exact .unsubscribed app

/-- The message at the head of the queue is the first one of its reader, or the last one after the
subscription has been handled. -/
lemma Sent.cases_head {reader : Reader} {before after : List WsMsg} {m : WsMsg}
    (h : Sent names r reader (before ++ m::after)) :
    (∃ app, before = [] ∧ m = ⟨.subscribeMsg,names.name r,app,r⟩) ∨
      (before = [] ∧ m = ⟨.unsubscribeMsg,[],[],r⟩) ∨
      ∃ app, before = [⟨.subscribeMsg,names.name r,app,r⟩] ∧ m = ⟨.unsubscribeMsg,names.name r,app,r⟩ := by
  generalize hsent : before ++ m::after = sent at h
  cases h with
  | absent => simp at hsent
  | connected => simp at hsent
  | subscribed app =>
    obtain ⟨rfl,hm⟩ := List.append_eq_singleton_iff.mp hsent |>.resolve_right (by simp)
    exact .inl ⟨app,rfl,(List.cons.inj hm).1⟩
  | left =>
    obtain ⟨rfl,hm⟩ := List.append_eq_singleton_iff.mp hsent |>.resolve_right (by simp)
    exact .inr (.inl ⟨rfl,(List.cons.inj hm).1⟩)
  | unsubscribed app =>
    cases before with
    | nil => exact .inl ⟨app,rfl,(List.cons.inj hsent).1⟩
    | cons b before =>
      obtain ⟨rfl,htail⟩ := List.cons.inj hsent
      obtain ⟨rfl,hm⟩ := List.append_eq_singleton_iff.mp htail |>.resolve_right (by simp)
      exact .inr (.inr ⟨app,rfl,(List.cons.inj hm).1⟩)

/-- Subscriptions carry the name of their reader. -/
lemma Sent.name_eq {reader : Reader} {sent : List WsMsg} (h : Sent names r reader sent) {name app : Bytes} {c : ReaderId}
    (hmem : ⟨.subscribeMsg,name,app,c⟩ ∈ sent) : name = names.name r := by
  cases h <;> simp_all

/-! Channels. -/

/-- No channel has been closed or reopened. -/
def SameClosed (before after : Channels) : Prop := ∀ r, (after r).closed = (before r).closed

lemma sameClosed_update {channels : Channels} {c : ReaderId} {chan : Channel} (h : chan.closed = (channels c).closed) :
    SameClosed channels (Function.update channels c chan) := by
  intro r
  by_cases hr : r = c
  · rw [hr,Function.update_self,h]
  · rw [Function.update_of_ne hr]

lemma Channels.yields_send {channels : Channels} {c : ReaderId} (h : (channels c).closed = false) (data : Bytes) :
    Yields (channels.send c data) (SameClosed channels) := by
  unfold Channels.send Channel.send
  rw [if_neg (by simp [h])]
  by_cases hroom : (channels c).buffer.length < channelCapacity
  · rw [if_pos hroom]
    exact ⟨_,rfl,sameClosed_update rfl⟩
  · rw [if_neg hroom]
    exact ⟨_,rfl,sameClosed_update rfl⟩

/-- Sending to channels that are open. -/
lemma yields_sends {ι : Type} (target : ι → ReaderId) (data : ι → Bytes) {items : List ι} {channels : Channels}
    (h : ∀ i ∈ items, (channels (target i)).closed = false) :
    Yields (items.foldlM (fun channels i => channels.send (target i) (data i)) channels) (SameClosed channels) := by
  refine Yields.foldlM (fun after hafter i hi => ?_) fun _ => rfl
  obtain ⟨next,hnext,hsame⟩ := Channels.yields_send ((hafter _).trans (h i hi)) (data i)
  exact ⟨next,hnext,fun r => (hsame r).trans (hafter r)⟩

lemma yields_sendAll {channels : Channels} {c : ReaderId} (h : (channels c).closed = false) (data : List Bytes) :
    Yields (sendAll c channels data) (SameClosed channels) :=
  yields_sends (fun _ => c) id fun _ _ => h

lemma yields_sendToWebSockets {ai : AppInfo} {channels : Channels}
    (h : ∀ (name : Bytes) r, ai.channels[name]? = some r → (channels r).closed = false) (data : List Bytes) :
    Yields (data.foldlM (sendToWebSockets ai) channels) (SameClosed channels) := by
  refine Yields.foldlM (fun after hafter d _ => ?_) fun _ => rfl
  have hopen : ∀ entry ∈ ai.channels.toList, (after entry.2).closed = false := by
    intro entry hentry
    have hget := Std.ExtTreeMap.mem_toList_iff_getElem?_eq_some.mp hentry
    exact (hafter entry.2).trans (h entry.1 entry.2 hget)
  obtain ⟨next,hnext,hsame⟩ := yields_sends Prod.snd (fun _ => d) hopen
  exact ⟨next,hnext,fun r => (hsame r).trans (hafter r)⟩

/-! The dispatcher. -/

lemma getApp_insert (apps : ZHash AppInfo) (key app : Bytes) (ai : AppInfo) :
    getApp (apps.insert key ai) app = if app = key then ai else getApp apps app := by
  unfold getApp
  by_cases h : app = key
  · rw [h,if_pos rfl,Std.ExtTreeMap.getElem?_insert_self,Option.getD_some]
  · rw [if_neg h,Std.ExtTreeMap.getElem?_insert,if_neg]
    simpa using Ne.symm h

lemma channels_file (json : GoJson) (ai : AppInfo) (msg : ZmqMsg) : (ai.file json msg).1.channels = ai.channels := by
  unfold AppInfo.file
  cases msg.msgType with
  | errorMsg => rfl
  | perfMsg =>
    cases json.extractTotalTime msg.data with
    | none => rfl
    | some totalTime =>
      simp only [addTotalTime]
      split <;> rfl

/-- A message changes neither the registrations nor which channels are closed. -/
lemma yields_handleZeromqMsg {apps : ZHash AppInfo} {channels : Channels}
    (h : ∀ app (name : Bytes) r, (getApp apps app).channels[name]? = some r → (channels r).closed = false) (msg : ZmqMsg) :
    Yields (handleZeromqMsg json apps channels msg) fun result =>
      (∀ app, (getApp result.1 app).channels = (getApp apps app).channels) ∧ SameClosed channels result.2 := by
  have hchannels := channels_file json (getApp apps msg.appEnv) msg
  have hopen : ∀ (name : Bytes) r, ((getApp apps msg.appEnv).file json msg).1.channels[name]? = some r →
      (channels r).closed = false := by
    intro name r hget
    rw [hchannels] at hget
    exact h msg.appEnv name r hget
  refine (yields_sendToWebSockets hopen _).bind fun after hafter => ⟨_,rfl,fun app => ?_,hafter⟩
  change (getApp (apps.insert msg.appEnv ((getApp apps msg.appEnv).file json msg).1) app).channels = _
  rw [getApp_insert]
  by_cases happ : app = msg.appEnv
  · rw [if_pos happ,hchannels,happ]
  · rw [if_neg happ]

/-- One entry of one app is changed. -/
lemma getElem_channels_insert {apps : ZHash AppInfo} {app name : Bytes} {info : AppInfo} {entry : Option ℕ}
    (h : ∀ n, info.channels[n]? = if n = name then entry else (getApp apps app).channels[n]?) (a n : Bytes) :
    (getApp (apps.insert app info) a).channels[n]? =
      if a = app ∧ n = name then entry else (getApp apps a).channels[n]? := by
  rw [getApp_insert]
  by_cases ha : a = app
  · rw [if_pos ha,ha,h]
    exact if_congr (and_iff_right rfl).symm rfl rfl
  · rw [if_neg ha,if_neg fun h => ha h.1]

lemma yields_subscribe {apps : ZHash AppInfo} {channels : Channels} {name app : Bytes}
    (h : (channels r).closed = false) :
    Yields (handleWebSocketMsg apps channels ⟨.subscribeMsg,name,app,r⟩) fun result =>
      (∀ a n, (getApp result.1 a).channels[n]? =
        if a = app ∧ n = name then some r else (getApp apps a).channels[n]?) ∧ SameClosed channels result.2 := by
  refine (yields_sendAll h _).bind fun c₁ h₁ => ?_
  refine (yields_sendAll ((h₁ r).trans h) _).bind fun c₂ h₂ => ?_
  refine (yields_sendAll ((h₂ r).trans ((h₁ r).trans h)) _).bind fun c₃ h₃ => ?_
  refine ⟨_,rfl,fun a n => ?_,fun r => (h₃ r).trans ((h₂ r).trans (h₁ r))⟩
  refine getElem_channels_insert (fun n => ?_) a n
  rw [Std.ExtTreeMap.getElem?_insert]
  exact if_congr (Std.LawfulEqCmp.compare_eq_iff_eq.trans eq_comm) rfl rfl

lemma yields_unsubscribe {apps : ZHash AppInfo} {channels : Channels} {name app : Bytes}
    (h : (channels r).closed = false) :
    Yields (handleWebSocketMsg apps channels ⟨.unsubscribeMsg,name,app,r⟩) fun result =>
      (∀ a n, (getApp result.1 a).channels[n]? =
        if a = app ∧ n = name then none else (getApp apps a).channels[n]?) ∧
      ∀ c, (result.2 c).closed = false ↔ c ≠ r ∧ (channels c).closed = false := by
  have hclose : (channels r).close = .ok { channels r with closed := true } := if_neg (by simp [h])
  have heq : handleWebSocketMsg apps channels ⟨.unsubscribeMsg,name,app,r⟩ =
      (channels r).close >>= fun chan => .ok (apps.insert app { getApp apps app with
        channels := (getApp apps app).channels.erase name },Function.update channels r chan) := rfl
  rw [heq,hclose]
  refine ⟨_,rfl,fun a n => ?_,fun c => ?_⟩
  · refine getElem_channels_insert (fun n => ?_) a n
    rw [Std.ExtTreeMap.getElem?_erase]
    exact if_congr (Std.LawfulEqCmp.compare_eq_iff_eq.trans eq_comm) rfl rfl
  · by_cases hc : c = r
    · simp [hc]
    · simp [hc]

/-! The steps keep the invariant. -/

namespace Inv

lemma initial : Inv names Server.initial [] where
  sent _ := .absent
  isOpen r := iff_of_true rfl (fun m hm => absurd hm List.not_mem_nil)
  registered app name r := iff_of_false (by simp [Server.initial,getApp,AppInfo.new]) fun h => List.not_mem_nil h.1

/-- Steps without a message of a reader to the dispatcher. -/
lemma of_channels (h : Inv names s handled) {t : Server}
    (happs : ∀ app, (getApp t.apps app).channels = (getApp s.apps app).channels)
    (hchannels : SameClosed s.channels t.channels)
    (hsent : ∀ r, Sent names r (t.readers r) (messagesOf r (handled ++ t.wsChannel))) : Inv names t handled where
  sent := hsent
  isOpen r := by rw [hchannels r,h.isOpen r]
  registered app name r := by rw [happs app,h.registered app name r]

lemma enqueueWs (h : Inv names s handled) {reader : Reader} {msg : WsMsg} (hmsg : msg.channel = r)
    (hsent : Sent names r reader (messagesOf r (handled ++ s.wsChannel) ++ [msg])) :
    Inv names (s.enqueueWs r reader msg) handled := by
  refine h.of_channels (fun _ => rfl) (fun _ => rfl) fun c => ?_
  have hmessages : messagesOf c (handled ++ (s.wsChannel ++ [msg])) =
      messagesOf c (handled ++ s.wsChannel) ++ messagesOf c [msg] := by
    rw [← List.append_assoc,messagesOf_append]
  simp only [Server.enqueueWs,hmessages]
  by_cases hc : c = r
  · rw [hc,Function.update_self]
    simpa [messagesOf,hmsg] using hsent
  · rw [Function.update_of_ne hc]
    have hmsg' : ¬msg.channel = c := fun heq => hc (heq.symm.trans hmsg)
    simpa [messagesOf,hmsg'] using h.sent c

/-- The name of a registration tells its reader. -/
lemma eq_of_subscription (h : Inv names s handled) {name app : Bytes} {c : ReaderId}
    (hmem : ⟨.subscribeMsg,name,app,c⟩ ∈ handled) : name = names.name c :=
  (h.sent c).name_eq (mem_messagesOf.mpr ⟨List.mem_append_left _ hmem,rfl⟩)

lemma registered_closed (h : Inv names s handled) (app name : Bytes) (c : ReaderId)
    (hget : (getApp s.apps app).channels[name]? = some c) : (s.channels c).closed = false :=
  (h.isOpen c).mpr ((h.registered app name c).mp hget).2

end Inv

lemma notClosing_append {a b : List WsMsg} : NotClosing (a ++ b) r ↔ NotClosing a r ∧ NotClosing b r := by
  simp only [NotClosing,List.mem_append,or_imp,forall_and]

lemma notClosing_of_messagesOf (h : ∀ m ∈ messagesOf r handled, m.msgType = .subscribeMsg) : NotClosing handled r :=
  fun m hm hr => h m (mem_messagesOf.mpr ⟨hm,hr⟩)

/-- A subscription is the first message of its reader. -/
lemma Inv.subscribe (h : Inv names s handled) {app : Bytes} {rest : List WsMsg} {t : Server}
    (hqueue : s.wsChannel = ⟨.subscribeMsg,names.name r,app,r⟩::rest) (hfirst : messagesOf r handled = [])
    (hget : ∀ a n, (getApp t.apps a).channels[n]? =
      if a = app ∧ n = names.name r then some r else (getApp s.apps a).channels[n]?)
    (hclosed : SameClosed s.channels t.channels) (hrest : t.wsChannel = rest) (hreaders : t.readers = s.readers) :
    Inv names t (handled ++ [⟨.subscribeMsg,names.name r,app,r⟩]) := by
  have hnone : ∀ m ∈ handled, m.channel ≠ r := fun m hm hr =>
    List.not_mem_nil (hfirst ▸ mem_messagesOf.mpr ⟨hm,hr⟩)
  have hclosing : ∀ c, NotClosing (handled ++ [⟨.subscribeMsg,names.name r,app,r⟩]) c ↔ NotClosing handled c := by
    intro c
    rw [notClosing_append]
    exact and_iff_left fun m hm _ => (List.mem_singleton.mp hm) ▸ rfl
  refine ⟨fun c => ?_,fun c => ?_,fun a n c => ?_⟩
  · rw [hreaders,hrest,List.append_assoc,List.singleton_append,← hqueue]
    exact h.sent c
  · rw [hclosed c,h.isOpen c,hclosing c]
  · rw [hget a n,hclosing c,List.mem_append,List.mem_singleton,or_and_right,← h.registered a n c]
    by_cases hkey : a = app ∧ n = names.name r
    · rw [if_pos hkey]
      obtain ⟨rfl,rfl⟩ := hkey
      constructor
      · intro hc
        obtain rfl := Option.some.inj hc
        exact .inr ⟨rfl,fun m hm hr => absurd hr (hnone m hm)⟩
      · rintro (hc | ⟨hc,-⟩)
        · -- another registration under this name would belong to the same reader
          have hmem := ((h.registered a _ c).mp hc).1
          exact congrArg some (names.injective (h.eq_of_subscription hmem))
        · exact congrArg some (WsMsg.mk.inj hc).2.2.2.symm
    · rw [if_neg hkey]
      refine (or_iff_left fun hc => hkey ?_).symm
      obtain ⟨-,hn,ha,-⟩ := WsMsg.mk.inj hc.1
      exact ⟨ha,hn⟩

/-- The last message of a reader removes its registration, if it has one. -/
lemma Inv.unsubscribe (h : Inv names s handled) {name app : Bytes} {rest : List WsMsg} {t : Server}
    (hqueue : s.wsChannel = ⟨.unsubscribeMsg,name,app,r⟩::rest)
    (hown : ∀ a n c, ⟨.subscribeMsg,n,a,c⟩ ∈ handled → (a = app ∧ n = name ↔ c = r))
    (hget : ∀ a n, (getApp t.apps a).channels[n]? =
      if a = app ∧ n = name then none else (getApp s.apps a).channels[n]?)
    (hclosed : ∀ c, (t.channels c).closed = false ↔ c ≠ r ∧ (s.channels c).closed = false)
    (hrest : t.wsChannel = rest) (hreaders : t.readers = s.readers) :
    Inv names t (handled ++ [⟨.unsubscribeMsg,name,app,r⟩]) := by
  have hclosing : ∀ c, NotClosing (handled ++ [⟨.unsubscribeMsg,name,app,r⟩]) c ↔ c ≠ r ∧ NotClosing handled c := by
    intro c
    rw [notClosing_append,and_comm]
    refine and_congr_left fun _ => ⟨fun hlast hc => ?_,fun hc m hm hr => ?_⟩
    · exact absurd (hlast _ (List.mem_singleton.mpr rfl) hc.symm) (by simp)
    · obtain rfl := List.mem_singleton.mp hm
      exact absurd hr.symm hc
  refine ⟨fun c => ?_,fun c => ?_,fun a n c => ?_⟩
  · rw [hreaders,hrest,List.append_assoc,List.singleton_append,← hqueue]
    exact h.sent c
  · rw [hclosed c,h.isOpen c,hclosing c]
  · have hmem : (⟨.subscribeMsg,n,a,c⟩ : WsMsg) ∈ handled ++ [⟨.unsubscribeMsg,name,app,r⟩] ↔
        ⟨.subscribeMsg,n,a,c⟩ ∈ handled := by simp
    rw [hget a n,hclosing c,hmem]
    by_cases hkey : a = app ∧ n = name
    · rw [if_pos hkey]
      refine iff_of_false (by simp) fun hc => hc.2.1 ((hown a n c hc.1).mp hkey)
    · rw [if_neg hkey,h.registered a n c]
      refine and_congr_right fun hsub => (and_iff_right ?_).symm
      exact fun hc => hkey ((hown a n c hsub).mpr hc)

/-- The dispatcher takes a message of a reader. -/
lemma Inv.dispatchWs (h : Inv names s handled) {msg : WsMsg} {rest : List WsMsg} (hqueue : s.wsChannel = msg::rest) :
    Yields (handleWebSocketMsg s.apps s.channels msg) fun result =>
      Inv names { s with apps := result.1, channels := result.2, wsChannel := rest } (handled ++ [msg]) := by
  have hsent : Sent names msg.channel (s.readers msg.channel)
      (messagesOf msg.channel handled ++ msg::messagesOf msg.channel rest) := by
    have hmessages : messagesOf msg.channel (msg::rest) = msg::messagesOf msg.channel rest := by simp [messagesOf]
    have h := h.sent msg.channel
    rwa [hqueue,messagesOf_append,hmessages] at h
  have hopen : (∀ m ∈ messagesOf msg.channel handled, m.msgType = .subscribeMsg) →
      (s.channels msg.channel).closed = false := fun hm => (h.isOpen _).mpr (notClosing_of_messagesOf hm)
  rcases hsent.cases_head with ⟨app,hfirst,hmsg⟩ | ⟨hfirst,hmsg⟩ | ⟨app,hfirst,hmsg⟩
  · rw [hfirst] at hopen
    rw [hmsg] at hqueue ⊢
    obtain ⟨result,heq,hget,hclosed⟩ := yields_subscribe (hopen (by simp))
    exact ⟨result,heq,h.subscribe hqueue hfirst hget hclosed rfl rfl⟩
  · rw [hfirst] at hopen
    rw [hmsg] at hqueue ⊢
    obtain ⟨result,heq,hget,hclosed⟩ := yields_unsubscribe (hopen (by simp))
    refine ⟨result,heq,h.unsubscribe hqueue (fun a n c hmem => iff_of_false ?_ ?_) hget hclosed rfl rfl⟩
    · exact fun hkey => names.ne_nil c ((h.eq_of_subscription hmem).symm.trans hkey.2)
    · rintro rfl
      exact List.not_mem_nil (hfirst ▸ mem_messagesOf.mpr ⟨hmem,rfl⟩)
  · rw [hfirst] at hopen
    rw [hmsg] at hqueue ⊢
    obtain ⟨result,heq,hget,hclosed⟩ := yields_unsubscribe (hopen (by simp))
    refine ⟨result,heq,h.unsubscribe hqueue (fun a n c hmem => ⟨fun hkey => ?_,?_⟩) hget hclosed rfl rfl⟩
    · exact names.injective ((h.eq_of_subscription hmem).symm.trans hkey.2)
    · rintro rfl
      have hsub := hfirst ▸ mem_messagesOf.mpr ⟨hmem,rfl⟩
      obtain ⟨-,hn,ha,-⟩ := WsMsg.mk.inj (List.mem_singleton.mp hsub)
      exact ⟨ha,hn⟩

lemma Inv.connect (h : Inv names s handled) (hreader : s.readers r = .absent) :
    Inv names { s with readers := Function.update s.readers r (.reading [] [] false) } handled := by
  refine h.of_channels (fun _ => rfl) (fun _ => rfl) fun c => ?_
  by_cases hc : c = r
  · have hsent := h.sent r
    rw [hreader] at hsent
    generalize hmessages : messagesOf r (handled ++ s.wsChannel) = messages at hsent
    cases hsent
    dsimp only
    rw [hc,hmessages,Function.update_self]
    exact .connected
  · dsimp only
    rw [Function.update_of_ne hc]
    exact h.sent c

lemma Inv.quiet {t : Server} (h : Inv names t handled) :
    Yields (.ok (t,[]) : Except Panic (Server × List WsMsg)) fun result => Inv names result.1 (handled ++ result.2) := by
  refine Yields.ok ?_
  dsimp only
  rwa [List.append_nil]

/-- No step fails, and all of them keep the invariant. -/
theorem Inv.step (h : Inv names s handled) (event : Event) :
    Yields (step names json s event) fun result => Inv names result.1 (handled ++ result.2) := by
  cases event with
  | connect r =>
    dsimp only [LiveStream.step]
    cases hreader : s.readers r with
    | absent => exact (h.connect hreader).quiet
    | reading app name started => exact h.quiet
    | finished => exact h.quiet
  | readText r bytes =>
    have hsent := h.sent r
    dsimp only [LiveStream.step]
    cases hreader : s.readers r with
    | absent => exact h.quiet
    | finished => exact h.quiet
    | reading app name started =>
      rw [hreader] at hsent
      cases started with
      | true => exact h.quiet
      | false =>
        dsimp only
        split
        · exact (h.enqueueWs rfl hsent.readText).quiet
        · exact h.quiet
  | hangUp r =>
    have hsent := h.sent r
    dsimp only [LiveStream.step]
    cases hreader : s.readers r with
    | absent => exact h.quiet
    | finished => exact h.quiet
    | reading app name started =>
      rw [hreader] at hsent
      dsimp only
      split
      · exact (h.enqueueWs rfl hsent.hangUp).quiet
      · exact h.quiet
  | receive msg =>
    dsimp only [LiveStream.step]
    cases zmqMsgHandler msg with
    | none => exact h.quiet
    | some msg =>
      dsimp only
      split
      · apply Inv.quiet
        exact h.of_channels (fun _ => rfl) (fun _ => rfl) h.sent
      · exact h.quiet
  | dispatchWs =>
    dsimp only [LiveStream.step]
    cases hqueue : s.wsChannel with
    | nil => exact h.quiet
    | cons msg rest => exact (h.dispatchWs hqueue).bind fun result hresult => ⟨_,rfl,hresult⟩
  | dispatchZmq =>
    dsimp only [LiveStream.step]
    cases hqueue : s.zmqChannel with
    | nil => exact h.quiet
    | cons msg rest =>
      refine (yields_handleZeromqMsg h.registered_closed msg).bind fun result hresult => ?_
      apply Inv.quiet
      exact h.of_channels hresult.1 hresult.2 h.sent
  | write r =>
    apply Inv.quiet
    exact h.of_channels (fun _ => rfl) (sameClosed_update rfl) h.sent

lemma run_inv (names : Naming) (json : GoJson) (events : List Event) :
    Yields (run names json events) fun state => Inv names state.1 state.2 := by
  refine Yields.foldlM (fun state hstate event _ => ?_) Inv.initial
  exact (hstate.step event).bind fun result hresult => ⟨_,rfl,hresult⟩

/-- Whatever the readers, the writers, the ZeroMQ handler and the dispatcher do: nothing is sent to
a closed channel, no channel is closed twice, and a channel is registered, under the name and the
application of its subscription, from the moment in which the dispatcher has handled the
subscription to the one in which it has handled the unsubscription. -/
theorem fanOut_safe (names : Naming) (json : GoJson) (events : List Event) :
    ∃ s handled, run names json events = .ok (s,handled) ∧
      ∀ app name r, (getApp s.apps app).channels[name]? = some r ↔
        ⟨.subscribeMsg,name,app,r⟩ ∈ handled ∧ ∀ m ∈ handled, m.channel = r → m.msgType ≠ .unsubscribeMsg := by
  obtain ⟨⟨s,handled⟩,hrun,hinv⟩ := run_inv names json events
  refine ⟨s,handled,hrun,fun app name r => (hinv.registered app name r).trans (and_congr_right fun _ => ?_)⟩
  refine forall_congr' fun m => forall_congr' fun _ => forall_congr' fun _ => ?_
  cases m.msgType <;> simp

/-- The names of the generator. -/
def nextChannelName : Naming where
  name r := lit "c-" ++ decimal (r+1)
  injective := by
    intro m n h
    have heq : decimal (m+1) = decimal (n+1) := List.append_cancel_left h
    have hdash : decimal (m+1) ++ (lit "-" ++ []) = decimal (n+1) ++ (lit "-" ++ []) := by rw [heq]
    exact Nat.succ.inj (decimal_dash_inj hdash).1
  ne_nil r := List.cons_ne_nil _ _

end Logjam.LiveStream
