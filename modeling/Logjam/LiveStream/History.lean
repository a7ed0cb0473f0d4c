import Logjam.LiveStream.Anomalies
import Logjam.LiveStream.FanOut

/-! What the live stream server remembers of an application, over whole runs of its goroutines, and what a new
subscriber gets of it. -/
namespace Logjam.LiveStream
open Library Library.Cyclic
open Logjam.Importer (ZHash)

variable {names : Naming} {json : GoJson} {ai : AppInfo} {app : Bytes} {filed : List ZmqMsg}

/-- The message of the ZeroMQ handler that the dispatcher takes in a step. -/
def dispatched (s : Server) : Event → List ZmqMsg
  | .dispatchZmq => s.zmqChannel.head?.toList
  | _ => []

/-- The state after the events and the messages that have been filed on the way. -/
def runFiled (names : Naming) (json : GoJson) (events : List Event) : Except Panic (Server × List ZmqMsg) :=
  events.foldlM (fun state event => do
    let (s,_) ← step names json state.1 event
    return (s,state.2 ++ dispatched state.1 event)) (Server.initial,[])

/-- The texts of the messages of an application that have the given type. -/
def dataOf (msgType : ZmqMsgType) (app : Bytes) (filed : List ZmqMsg) : List Bytes :=
  (filed.filter fun msg => msg.appEnv = app ∧ msg.msgType = msgType).map (·.data)

/-- The total times of an application, as far as they can be extracted. -/
def totalTimes (json : GoJson) (app : Bytes) (filed : List ZmqMsg) : List ℚ :=
  (dataOf .perfMsg app filed).filterMap json.extractTotalTime

/-- The state of an application after the messages. -/
structure Records (json : GoJson) (ai : AppInfo) (app : Bytes) (filed : List ZmqMsg) : Prop where
  metrics : ai.metrics.Represents (dataOf .perfMsg app filed)
  errors : ai.errors.Represents (dataOf .errorMsg app filed)
  windows : Windows json ai (totalTimes json app filed)

/-! The messages of an application. -/

lemma dataOf_concat (msgType : ZmqMsgType) (app : Bytes) (filed : List ZmqMsg) (msg : ZmqMsg) :
    dataOf msgType app (filed ++ [msg]) =
      dataOf msgType app filed ++ if msg.appEnv = app ∧ msg.msgType = msgType then [msg.data] else [] := by
  rw [dataOf,List.filter_append,List.map_append,dataOf]
  split_ifs with h <;> simp [h]

lemma totalTimes_concat (json : GoJson) (app : Bytes) (filed : List ZmqMsg) (msg : ZmqMsg) :
    totalTimes json app (filed ++ [msg]) = totalTimes json app filed ++
      if msg.appEnv = app ∧ msg.msgType = .perfMsg then (json.extractTotalTime msg.data).toList else [] := by
  rw [totalTimes,dataOf_concat,List.filterMap_append,totalTimes]
  split_ifs with h
  · cases htime : json.extractTotalTime msg.data <;> simp [htime]
  · rfl

/-! What a message changes. -/

namespace Records

lemma new : Records json AppInfo.new app [] := ⟨.new [],.new [],.new⟩

/-- Registrations are not part of the record. -/
lemma withChannels (h : Records json ai app filed) (channels : ZHash ReaderId) :
    Records json { ai with channels } app filed :=
  ⟨h.metrics,h.errors,h.windows.minute,h.windows.hour,h.windows.anomaly⟩

lemma other (h : Records json ai app filed) {msg : ZmqMsg} (hmsg : msg.appEnv ≠ app) :
    Records json ai app (filed ++ [msg]) := by
  obtain ⟨hmetrics,herrors,hwindows⟩ := h
  refine ⟨?_,?_,?_⟩
  · rwa [dataOf_concat,if_neg fun hc => hmsg hc.1,List.append_nil]
  · rwa [dataOf_concat,if_neg fun hc => hmsg hc.1,List.append_nil]
  · rwa [totalTimes_concat,if_neg fun hc => hmsg hc.1,List.append_nil]

lemma rings_addTotalTime (json : GoJson) (ai : AppInfo) (v : ℚ) :
    (addTotalTime json ai v).1.metrics = ai.metrics ∧ (addTotalTime json ai v).1.errors = ai.errors := by
  unfold addTotalTime
  split_ifs <;> exact ⟨rfl,rfl⟩

/-- A message adds its text to one of the two rings, and its total time to the windows. -/
theorem file (h : Records json ai app filed) {msg : ZmqMsg} (hmsg : msg.appEnv = app) :
    Records json (ai.file json msg).1 app (filed ++ [msg]) := by
  obtain ⟨hmetrics,herrors,hwindows⟩ := h
  obtain ⟨msgType,appEnv,data⟩ := msg
  obtain rfl : appEnv = app := hmsg
  cases msgType with
  | errorMsg =>
    dsimp only [AppInfo.file]
    refine ⟨?_,?_,?_⟩
    · simpa [dataOf_concat] using hmetrics
    · simpa [dataOf_concat] using herrors.add data
    · rw [totalTimes_concat,if_neg (by simp),List.append_nil]
      exact ⟨hwindows.minute,hwindows.hour,hwindows.anomaly⟩
  | perfMsg =>
    have hwindows' : Windows json { ai with metrics := ai.metrics.add data } (totalTimes json appEnv filed) :=
      ⟨hwindows.minute,hwindows.hour,hwindows.anomaly⟩
    cases htime : json.extractTotalTime data with
    | none =>
      simp only [AppInfo.file,htime]
      refine ⟨?_,?_,?_⟩
      · simpa [dataOf_concat] using hmetrics.add data
      · simpa [dataOf_concat] using herrors
      · simpa [totalTimes_concat,htime] using hwindows'
    | some v =>
      simp only [AppInfo.file,htime]
      obtain ⟨hkeepm,hkeepe⟩ := rings_addTotalTime json { ai with metrics := ai.metrics.add data } v
      refine ⟨?_,?_,?_⟩
      · rw [hkeepm]
        simpa [dataOf_concat] using hmetrics.add data
      · rw [hkeepe]
        simpa [dataOf_concat] using herrors
      · simpa [totalTimes_concat,htime] using hwindows'.addTotalTime v

/-- What is sent to the web sockets: the anomaly message of a block that has been completed, and the message. -/
lemma file_snd (h : Records json ai app filed) (msg : ZmqMsg) :
    (ai.file json msg).2 =
      (if msg.msgType = .perfMsg ∧ (json.extractTotalTime msg.data).isSome
        then (nextAnomaly json (totalTimes json app filed)).toList else []) ++ [msg.data] := by
  unfold AppInfo.file
  cases msg.msgType with
  | errorMsg => rfl
  | perfMsg =>
    have hwindows : Windows json { ai with metrics := ai.metrics.add msg.data } (totalTimes json app filed) :=
      ⟨h.windows.minute,h.windows.hour,h.windows.anomaly⟩
    cases json.extractTotalTime msg.data with
    | none => rfl
    | some v =>
      rw [if_pos ⟨rfl,rfl⟩,← hwindows.addTotalTime_snd v]

end Records

/-! Runs. -/

variable {s t : Server} {handled : List WsMsg}

/-- A message of a reader changes nothing but registrations. -/
lemma ensures_handleWebSocketMsg (apps : ZHash AppInfo) (channels : Channels) (msg : WsMsg) :
    Ensures (handleWebSocketMsg apps channels msg) fun result =>
      ∀ app,∃ registered,getApp result.1 app = { getApp apps app with channels := registered } := by
  have hinsert (registered : ZHash ReaderId) (app : Bytes) : ∃ registered',
      getApp (apps.insert msg.appEnv { getApp apps msg.appEnv with channels := registered }) app =
        { getApp apps app with channels := registered' } := by
    rw [getApp_insert]
    by_cases happ : app = msg.appEnv
    · exact ⟨registered,by rw [if_pos happ,happ]⟩
    · exact ⟨(getApp apps app).channels,by rw [if_neg happ]⟩
  unfold handleWebSocketMsg
  cases msg.msgType with
  | subscribeMsg =>
    refine (ensures_true _).bind fun _ _ => (ensures_true _).bind fun _ _ => (ensures_true _).bind fun _ _ => ?_
    exact Ensures.ok (hinsert _)
  | unsubscribeMsg => exact (ensures_true _).bind fun _ _ => Ensures.ok (hinsert _)

lemma ensures_handleZeromqMsg (json : GoJson) (apps : ZHash AppInfo) (channels : Channels) (msg : ZmqMsg) :
    Ensures (handleZeromqMsg json apps channels msg) fun result =>
      result.1 = apps.insert msg.appEnv ((getApp apps msg.appEnv).file json msg).1 :=
  (ensures_true _).bind fun _ _ => Ensures.ok rfl

/-- In one step, the message that the dispatcher takes is filed. -/
lemma ensures_step (hrecords : ∀ app,Records json (getApp s.apps app) app filed) (event : Event) :
    Ensures (step names json s event) fun result =>
      ∀ app,Records json (getApp result.1.apps app) app (filed ++ dispatched s event) := by
  have hquiet {t : Server} (happs : t.apps = s.apps) :
      Ensures (.ok (t,[]) : Except Panic (Server × List WsMsg)) fun result =>
        ∀ app,Records json (getApp result.1.apps app) app (filed ++ []) := by
    refine Ensures.ok fun app => ?_
    rw [happs,List.append_nil]
    exact hrecords app
  cases event with
  | connect r =>
    dsimp only [step,dispatched]
    cases s.readers r <;> exact hquiet rfl
  | readText r bytes =>
    dsimp only [step,dispatched]
    split
    · split_ifs <;> exact hquiet rfl
    · exact hquiet rfl
  | hangUp r =>
    dsimp only [step,dispatched]
    split
    · split_ifs <;> exact hquiet rfl
    · exact hquiet rfl
  | receive msg =>
    dsimp only [step,dispatched]
    split
    · split_ifs <;> exact hquiet rfl
    · exact hquiet rfl
  | dispatchWs =>
    dsimp only [step,dispatched]
    cases s.wsChannel with
    | nil => exact hquiet rfl
    | cons msg rest =>
      refine (ensures_handleWebSocketMsg s.apps s.channels msg).bind fun result hresult => Ensures.ok fun app => ?_
      obtain ⟨registered,heq⟩ := hresult app
      dsimp only
      rw [heq,List.append_nil]
      exact (hrecords app).withChannels registered
  | dispatchZmq =>
    cases hqueue : s.zmqChannel with
    | nil =>
      simp only [step,dispatched,hqueue]
      exact hquiet rfl
    | cons msg rest =>
      simp only [step,dispatched,hqueue]
      refine (ensures_handleZeromqMsg json s.apps s.channels msg).bind fun result hresult => Ensures.ok fun app => ?_
      dsimp only
      rw [hresult,getApp_insert]
      by_cases happ : app = msg.appEnv
      · rw [if_pos happ,happ]
        exact (hrecords msg.appEnv).file rfl
      · rw [if_neg happ]
        exact (hrecords app).other (Ne.symm happ)
  | write r => exact hquiet rfl

/-- What holds of the state after each run. -/
def Reached (names : Naming) (json : GoJson) (s : Server) (filed : List ZmqMsg) : Prop :=
  (∃ handled,Inv names s handled) ∧ ∀ app,Records json (getApp s.apps app) app filed

theorem yields_runFiled (names : Naming) (json : GoJson) (events : List Event) :
    Yields (runFiled names json events) fun result => Reached names json result.1 result.2 := by
  refine Yields.foldlM (fun state hstate event _ => ?_) ⟨⟨[],.initial⟩,fun app => ?_⟩
  · obtain ⟨⟨handled,hinv⟩,hrecords⟩ := hstate
    obtain ⟨⟨t,out⟩,heq,hnext⟩ : Yields (step names json state.1 event) _ := hinv.step event
    rw [heq]
    exact ⟨_,rfl,⟨_,hnext⟩,ensures_step hrecords event _ heq⟩
  · simpa [Server.initial,getApp] using Records.new

/-- After every run, the windows of an application are those of its total times, and the next message gives rise to
an anomaly message if it is the first one after a whole number of blocks. -/
theorem windows_exact (names : Naming) (json : GoJson) (events : List Event) :
    Yields (runFiled names json events) fun result => ∀ app,
      let ai := getApp result.1.apps app
      let values := totalTimes json app result.2
      ai.lastMinute.elements = lastUpTo ((values.length-1)%bufSize+1) values ∧
      ai.lastHour.elements = lastUpTo bufSize (blockMeans values (completedBlocks values)) ∧
      (∀ msg,(ai.file json msg).2 =
        (if msg.msgType = .perfMsg ∧ (json.extractTotalTime msg.data).isSome
          then (nextAnomaly json values).toList else []) ++ [msg.data]) ∧
      ((∀ score isAnomaly,(json.marshalAnomaly score isAnomaly).isSome) →
        ((nextAnomaly json values).isSome ↔ ∃ k,1 ≤ k ∧ values.length+1 = bufSize*k+1)) := by
  obtain ⟨result,heq,-,hrecords⟩ := yields_runFiled names json events
  refine ⟨result,heq,fun app => ⟨(hrecords app).windows.minute_elements,(hrecords app).windows.hour_elements,
    (hrecords app).file_snd,fun hmarshal => ?_⟩⟩
  unfold nextAnomaly
  split_ifs with hwhole
  · obtain ⟨k,hk⟩ := hwhole.2
    have hpos : 1 ≤ k := Nat.pos_of_ne_zero fun hzero => by rw [hk,hzero] at hwhole; omega
    exact iff_of_true (hmarshal _ _) ⟨k,hpos,by rw [hk]⟩
  · refine iff_of_false (by simp) fun ⟨k,hk,hlength⟩ => hwhole ⟨?_,k,Nat.succ.inj hlength⟩
    have hbuf : bufSize*1 ≤ bufSize*k := Nat.mul_le_mul_left _ hk
    have hbufPos : 0 < bufSize := by decide
    omega

/-- The JSON package on the messages of the sample, none of which is an anomaly. -/
def sampleJson : GoJson where
  extractTotalTime data :=
    if data = lit "\x7b\"total_time\":1\x7d" then some 1
    else if data = lit "\x7b\"total_time\":2.5\x7d" then some (5/2)
    else none
  marshalAnomaly _ _ := some (lit "\x7b\"score\":0,\"anomaly\":false\x7d")

def sampleData : List Bytes :=
  [lit "\x7b\"total_time\":1\x7d",lit "\x7b\"total_time\":2.5\x7d",lit "[\x7b\"severity\":3\x7d]",
    lit "[\x7b\"severity\":4\x7d]"]

/-- One reader that subscribes after two performance messages and two errors. -/
def lateReader : List Event :=
  sampleData.map (fun data => .receive [lit "app-env",data]) ++
    [.dispatchZmq,.dispatchZmq,.connect 0,.dispatchZmq,.dispatchZmq,.readText 0 (lit "app-env")]

lemma lateReader_run : (runFiled nextChannelName sampleJson lateReader).toOption.map
    (fun result => (result.1.wsChannel,(result.1.channels 0).buffer,result.2)) =
      some ([⟨.subscribeMsg,lit "c-1",lit "app-env",0⟩],[],
        sampleData.map fun data => ⟨if data.head? = some 91 then .errorMsg else .perfMsg,lit "app-env",data⟩) := by
  decide +kernel

theorem windows_exact_sample : ∃ result,runFiled nextChannelName sampleJson lateReader = .ok result ∧
    (getApp result.1.apps (lit "app-env")).lastMinute.elements = [1,5/2] ∧
      ¬(nextAnomaly sampleJson (totalTimes sampleJson (lit "app-env") result.2)).isSome := by
  obtain ⟨result,hrun,hstate⟩ := exists_ok_of_toOption_map lateReader_run
  have hvalues : totalTimes sampleJson (lit "app-env") result.2 = [1,5/2] := by
    rw [(Prod.mk.inj (Prod.mk.inj hstate).2).2]
    decide +kernel
  obtain ⟨result',hrun',hwindows⟩ := windows_exact nextChannelName sampleJson lateReader
  obtain rfl : result' = result := Except.ok.inj (hrun'.symm.trans hrun)
  obtain ⟨hminute,-,-,hnext⟩ := hwindows (lit "app-env")
  rw [hvalues] at hminute hnext
  refine ⟨result',hrun,hminute,fun hsome => ?_⟩
  rw [hvalues] at hsome
  obtain ⟨k,hk,hlength⟩ := (hnext fun _ _ => rfl).mp hsome
  have hcount : [1,5/2].length+1 = bufSize*k+1 := hlength
  rw [bufSize,List.length_cons,List.length_singleton] at hcount
  omega

/-! Subscribers. -/

/-- What is sent to a new subscriber. -/
def recent (json : GoJson) (app : Bytes) (filed : List ZmqMsg) : List Bytes :=
  lastUpTo bufSize (dataOf .perfMsg app filed) ++ lastUpTo bufSize (dataOf .errorMsg app filed) ++
    (anomalies json (totalTimes json app filed)).getLast?.toList

/-- A channel with room takes everything. -/
lemma sendAll_eq {c : ReaderId} {channels : Channels} (hopen : (channels c).closed = false) {data : List Bytes}
    (hroom : (channels c).buffer.length+data.length ≤ channelCapacity) :
    sendAll c channels data = .ok (Function.update channels c { channels c with buffer := (channels c).buffer ++ data }) := by
  induction data generalizing channels with
  | nil => simp [sendAll,pure,Except.pure]
  | cons d data ih =>
    rw [List.length_cons] at hroom
    have hsend : channels.send c d =
        .ok (Function.update channels c { channels c with buffer := (channels c).buffer ++ [d] }) := by
      rw [Channels.send,Channel.send,if_neg (by simp [hopen]),if_pos (by omega)]
      rfl
    have hrest := @ih (Function.update channels c { channels c with buffer := (channels c).buffer ++ [d] })
    rw [Function.update_self,Function.update_idem] at hrest
    rw [sendAll,List.foldlM_cons,hsend]
    refine (hrest hopen ?_).trans ?_
    · rw [List.length_append,List.length_singleton]
      omega
    · rw [List.append_assoc,List.singleton_append]

lemma sendAll_append (c : ReaderId) (channels : Channels) (a b : List Bytes) :
    sendAll c channels (a ++ b) = sendAll c channels a >>= fun channels => sendAll c channels b :=
  List.foldlM_append

/-- The last anomaly message is kept as a text, and no anomaly message is empty. -/
lemma lastAnomaly_eq (hjson : ∀ score isAnomaly,json.marshalAnomaly score isAnomaly ≠ some []) (values : List ℚ) :
    (if (anomalies json values).getLast?.getD [] = [] then [] else [(anomalies json values).getLast?.getD []]) =
      (anomalies json values).getLast?.toList := by
  cases hlast : (anomalies json values).getLast? with
  | none => rfl
  | some text =>
    obtain ⟨k,-,hk⟩ := List.mem_filterMap.mp (List.mem_of_getLast? hlast)
    have htext : text ≠ [] := by
      rintro rfl
      exact hjson _ _ hk
    rw [Option.getD_some,if_neg htext,Option.toList_some]

/-- What the dispatcher sends is what the messages so far say. -/
lemma Records.recent_eq (h : Records json ai app filed)
    (hjson : ∀ score isAnomaly,json.marshalAnomaly score isAnomaly ≠ some []) :
    recent json app filed =
      ai.metrics.elements ++ ai.errors.elements ++ if ai.lastAnomalyMsg = [] then [] else [ai.lastAnomalyMsg] := by
  rw [recent,h.metrics.elements_eq,h.errors.elements_eq,h.windows.anomaly,lastAnomaly_eq hjson]

lemma subscribe_eq (apps : ZHash AppInfo) (channels : Channels) (name app : Bytes) (r : ReaderId) :
    handleWebSocketMsg apps channels ⟨.subscribeMsg,name,app,r⟩ =
      sendAll r channels ((getApp apps app).metrics.elements ++ (getApp apps app).errors.elements ++
        if (getApp apps app).lastAnomalyMsg = [] then [] else [(getApp apps app).lastAnomalyMsg]) >>= fun channels =>
      .ok (apps.insert app { getApp apps app with channels := (getApp apps app).channels.insert name r },channels) := by
  rw [sendAll_append,sendAll_append,bind_assoc,bind_assoc]
  rfl

/-- The channel of a reader is open when its subscription is handled. -/
lemma Inv.isOpen_of_subscribe (h : Inv names s handled) {name : Bytes} {r : ReaderId} {rest : List WsMsg}
    (hqueue : s.wsChannel = ⟨.subscribeMsg,name,app,r⟩::rest) : (s.channels r).closed = false := by
  have hsent := h.sent r
  have hmessages : messagesOf r (⟨.subscribeMsg,name,app,r⟩::rest) = ⟨.subscribeMsg,name,app,r⟩::messagesOf r rest := by
    simp [messagesOf]
  rw [hqueue,messagesOf_append,hmessages] at hsent
  refine (h.isOpen r).mpr (notClosing_of_messagesOf fun m hm => ?_)
  rcases hsent.cases_head with ⟨-,hfirst,-⟩ | ⟨hfirst,-⟩ | ⟨app,-,hmsg⟩
  · exact absurd (hfirst ▸ hm) List.not_mem_nil
  · exact absurd (hfirst ▸ hm) List.not_mem_nil
  · exact absurd (WsMsg.mk.inj hmsg).1 (by decide)

/-- ForEach visits the last strings from the oldest one on. In every run, a new subscriber whose channel has room
gets the last performance messages, the last error messages and the last anomaly message. -/
theorem subscriber_gets_recent :
    (∀ added : List Bytes,(added.foldl Ring.add (Ring.new [])).forEach = (lastUpTo bufSize added).mapIdx Prod.mk) ∧
    ∀ (names : Naming) (json : GoJson) (events : List Event) (s : Server) (filed : List ZmqMsg),
      (∀ score isAnomaly,json.marshalAnomaly score isAnomaly ≠ some []) → runFiled names json events = .ok (s,filed) →
      ∀ (name app : Bytes) (r : ReaderId) (rest : List WsMsg),s.wsChannel = ⟨.subscribeMsg,name,app,r⟩::rest →
        (s.channels r).buffer.length+(recent json app filed).length ≤ channelCapacity →
        Yields (step names json s .dispatchWs) fun result =>
          (result.1.channels r).buffer = (s.channels r).buffer ++ recent json app filed ∧
          ∀ c,c ≠ r → result.1.channels c = s.channels c := by
  refine ⟨fun added => ?_,fun names json events s filed hjson hrun name app r rest hqueue hroom => ?_⟩
  · rw [forEach_eq,(Ring.Represents.foldl_add [] added).elements_eq]
  · obtain ⟨result,hresult,⟨handled,hinv⟩,hrecords⟩ := yields_runFiled names json events
    obtain rfl : result = (s,filed) := Except.ok.inj (hresult.symm.trans hrun)
    have hsubscribe := subscribe_eq s.apps s.channels name app r
    rw [← (hrecords app).recent_eq hjson,sendAll_eq (hinv.isOpen_of_subscribe hqueue) hroom] at hsubscribe
    simp only [step,hqueue,hsubscribe]
    refine ⟨_,rfl,?_,fun c hc => ?_⟩
    · dsimp only
      rw [Function.update_self]
    · exact Function.update_of_ne hc _ _

theorem subscriber_gets_recent_sample : ∃ s filed,runFiled nextChannelName sampleJson lateReader = .ok (s,filed) ∧
    Yields (step nextChannelName sampleJson s .dispatchWs) fun result => (result.1.channels 0).buffer = sampleData := by
  obtain ⟨⟨s,filed⟩,hrun,hstate⟩ := exists_ok_of_toOption_map lateReader_run
  obtain ⟨hqueue,hbuffer,hfiled⟩ : s.wsChannel = _ ∧ (s.channels 0).buffer = _ ∧ filed = _ := by
    simpa only [Prod.mk.injEq] using hstate
  have hrecent : recent sampleJson (lit "app-env") filed = sampleData := by
    rw [hfiled]
    decide +kernel
  have hsent := subscriber_gets_recent.2 nextChannelName sampleJson lateReader s filed
    (fun _ _ => by simp [sampleJson,lit]) hrun _ _ 0 [] hqueue (by rw [hbuffer,hrecent]; decide)
  rw [hbuffer,hrecent] at hsent
  obtain ⟨result,hresult,heq,-⟩ := hsent
  exact ⟨s,filed,hrun,result,hresult,heq⟩

end Logjam.LiveStream
