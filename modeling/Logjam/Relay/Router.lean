import Logjam.Importer.Subscriber

/-! Requests on the ROUTER sockets of logjam-device and logjam-importer. A producer that wants a
reply sends an empty frame first. -/
namespace Logjam.Relay.Router
open Logjam.Importer (SubscriberState PushSocket readRouterRequestForward)

def accepted : List Bytes := [lit "202 Accepted"]
def badRequest : List Bytes := [lit "400 Bad Request"]
def pong (myFqdn : Bytes) : List Bytes := [lit "200 Pong",myFqdn]

/-- What the device sends back, and what it puts back on its event loop. -/
structure Handled where
  reply : Option (List Bytes)
  forwarded : Option (List Bytes)
  deriving DecidableEq

/-- Whether the message has four frames, the last of which can be decoded. -/
def decodable (msg : List Bytes) (uninitialised : MsgMeta) : Bool :=
  match msg with
  | [_,_,_,metaFrame] => (frameExtractMetaInfo metaFrame uninitialised).1
  | _ => false

/-- Without delimiter the message is forwarded whatever it is. -/
def readRouterMessageAndForward (myFqdn : Bytes) (uninitialised : MsgMeta) (request : List Bytes) :
    Except Fault Handled :=
  match request with
  | senderId::empty::msg =>
    if 0 < empty.length then .ok ⟨none,some (empty::msg)⟩
    else
      match msg with
      -- the name of the application is compared with that of the ping
      | [] => .error .absentFrame
      | appEnv::_ =>
        let isPing := appEnv == lit "ping"
        let answer :=
          if isPing then if decodable msg uninitialised then pong myFqdn else badRequest
          else if decodable msg uninitialised then accepted else badRequest
        .ok ⟨some ([senderId,empty] ++ answer),if isPing then none else some msg⟩
  -- the size of the missing delimiter is asked for
  | _ => .error .absentFrame

/-! The protocol. -/

/-- The four frames of a message, with meta information that can be decoded. -/
def ProtocolFrames (msg : List Bytes) : Prop :=
  ∃ appEnv topic body metaFrame, msg = [appEnv,topic,body,metaFrame] ∧ ValidMeta metaFrame

lemma decodable_iff (msg : List Bytes) (uninitialised : MsgMeta) :
    decodable msg uninitialised = true ↔ ProtocolFrames msg := by
  unfold decodable ProtocolFrames
  split
  · rename_i appEnv topic body metaFrame
    rw [frameExtractMetaInfo_fst]
    constructor
    · exact fun h => ⟨appEnv,topic,body,metaFrame,rfl,h⟩
    · rintro ⟨_,_,_,frame,hmsg,h⟩
      simp only [List.cons.injEq] at hmsg
      exact hmsg.2.2.2.1 ▸ h
  · rename_i hshape
    refine iff_of_false Bool.false_ne_true ?_
    rintro ⟨appEnv,topic,body,metaFrame,rfl,-⟩
    exact hshape _ _ _ _ rfl

instance (msg : List Bytes) : Decidable (ProtocolFrames msg) :=
  decidable_of_iff _ (decodable_iff msg metaInfoEmpty)

/-- The answer to the frames behind the delimiter. -/
def protocolAnswer (myFqdn : Bytes) (msg : List Bytes) : List Bytes :=
  if ProtocolFrames msg then if msg.head? = some (lit "ping") then pong myFqdn else accepted else badRequest

/-- The reply to a request, in the envelope that returns it to the sender. -/
def protocolReply (myFqdn : Bytes) : List Bytes → Option (List Bytes)
  | senderId::[]::msg => some ([senderId,[]] ++ protocolAnswer myFqdn msg)
  | _ => none

section
variable {myFqdn : Bytes} {uninitialised : MsgMeta} {state : SubscriberState} {socket : PushSocket}
  {senderId : Bytes} {frames msg : List Bytes}

/-- The device survives the request and replies as it should. -/
def DeviceConforms (myFqdn : Bytes) (uninitialised : MsgMeta) (request : List Bytes) : Prop :=
  ∃ forwarded, readRouterMessageAndForward myFqdn uninitialised request =
    .ok ⟨protocolReply myFqdn request,forwarded⟩

def ImporterConforms (myFqdn : Bytes) (state : SubscriberState) (socket : PushSocket) (request : List Bytes) :
    Prop :=
  ∃ next sent, readRouterRequestForward myFqdn state request socket =
    .ok (next,sent,protocolReply myFqdn request)

lemma protocolReply_of_nonempty {second : Bytes} (h : second ≠ []) :
    protocolReply myFqdn (senderId::second::msg) = none := by
  cases second with
  | nil => exact absurd rfl h
  | cons c second => rfl

lemma device_without_delimiter {second : Bytes} (h : second ≠ []) :
    readRouterMessageAndForward myFqdn uninitialised (senderId::second::msg) = .ok ⟨none,some (second::msg)⟩ := by
  cases second with
  | nil => exact absurd rfl h
  | cons c second => rfl

lemma device_with_delimiter {appEnv : Bytes} {rest : List Bytes} : ∃ forwarded,
    readRouterMessageAndForward myFqdn uninitialised (senderId::[]::appEnv::rest) =
      .ok ⟨some ([senderId,[]] ++ protocolAnswer myFqdn (appEnv::rest)),forwarded⟩ := by
  have hanswer : protocolAnswer myFqdn (appEnv::rest) =
      if appEnv == lit "ping" then
        if decodable (appEnv::rest) uninitialised then pong myFqdn else badRequest
      else if decodable (appEnv::rest) uninitialised then accepted else badRequest := by
    by_cases hping : appEnv = lit "ping"
    · simp [protocolAnswer,← decodable_iff _ uninitialised,hping]
    · simp [protocolAnswer,← decodable_iff _ uninitialised,hping]
  rw [hanswer]
  exact ⟨_,rfl⟩

/-- The device asks for the first frame behind the delimiter. -/
theorem deviceConforms_iff : DeviceConforms myFqdn uninitialised (senderId::frames) ↔
    frames ≠ [] ∧ frames ≠ [[]] := by
  cases frames with
  | nil => exact iff_of_false (fun ⟨_,h⟩ => nomatch h) fun h => h.1 rfl
  | cons second msg =>
    by_cases hsecond : second = []
    · subst hsecond
      cases msg with
      | nil => exact iff_of_false (fun ⟨_,h⟩ => nomatch h) fun h => h.2 rfl
      | cons appEnv rest => exact iff_of_true device_with_delimiter ⟨List.cons_ne_nil _ _,by simp⟩
    · refine iff_of_true ⟨some (second::msg),?_⟩ ⟨List.cons_ne_nil _ _,by simp [hsecond]⟩
      rw [protocolReply_of_nonempty hsecond]
      exact device_without_delimiter hsecond

/-- The answer of the importer looks at the number of frames only. -/
def importerAnswer (myFqdn : Bytes) : List Bytes → List Bytes
  | [_,_,_] => accepted
  | [appEnv,_,_,_] => if appEnv = lit "ping" then pong myFqdn else accepted
  | _ => badRequest

lemma importer_without_delimiter {second : Bytes} (h : second ≠ []) : ∃ next sent,
    readRouterRequestForward myFqdn state (senderId::second::msg) socket = .ok (next,sent,none) := by
  have henvelope : Importer.routerEnvelope senderId second msg = (second::msg,none) :=
    if_pos (List.length_pos_iff.mpr h)
  simp only [readRouterRequestForward,henvelope,Option.map_none]
  split
  · exact ⟨_,_,rfl⟩
  · split
    · exact ⟨_,_,rfl⟩
    · split <;> exact ⟨_,_,rfl⟩
  · exact ⟨_,_,rfl⟩

lemma isHeartbeat_eq (state : SubscriberState) (first spec metaFrame : Bytes) :
    (Importer.processMetaInformationAndHandleHeartbeat state first spec metaFrame).1 =
      (first == lit "heartbeat") := by
  unfold Importer.processMetaInformationAndHandleHeartbeat
  split
  · rfl
  · dsimp only
    split <;> rfl

lemma importer_with_delimiter (myFqdn : Bytes) (state : SubscriberState) (socket : PushSocket)
    (senderId : Bytes) (msg : List Bytes) : ∃ next sent,
    readRouterRequestForward myFqdn state (senderId::[]::msg) socket =
      .ok (next,sent,some ([senderId,[]] ++ importerAnswer myFqdn msg)) := by
  have henvelope : Importer.routerEnvelope senderId [] msg = (msg,some [senderId,[]]) := rfl
  simp only [readRouterRequestForward,henvelope,Option.map_some,isHeartbeat_eq]
  split
  · exact ⟨_,_,rfl⟩
  · rename_i first second body metaFrame
    rw [importerAnswer]
    by_cases hheartbeat : first = lit "heartbeat"
    · have hping : lit "heartbeat" ≠ lit "ping" := by decide
      rw [hheartbeat,if_pos (beq_self_eq_true _),if_neg hping]
      exact ⟨_,_,rfl⟩
    · rw [if_neg (by simpa using hheartbeat)]
      by_cases hping : first = lit "ping"
      · rw [if_pos hping,if_pos hping]
        exact ⟨_,_,rfl⟩
      · rw [if_neg hping,if_neg hping]
        exact ⟨_,_,rfl⟩
  · rename_i hthree hfour
    rw [importerAnswer]
    · exact ⟨_,_,rfl⟩
    · exact hthree
    · exact hfour

lemma ProtocolFrames.length (h : ProtocolFrames msg) : msg.length = 4 := by
  obtain ⟨_,_,_,_,rfl,-⟩ := h
  rfl

/-- The importer answers as it should unless it takes a malformed message for a proper one. -/
lemma importerAnswer_eq_iff : importerAnswer myFqdn msg = protocolAnswer myFqdn msg ↔
    msg.length ≠ 3 ∧ (msg.length = 4 → ProtocolFrames msg) := by
  have hlength {k : ℕ} (h : msg.length = k) (hk : k ≠ 4) : protocolAnswer myFqdn msg = badRequest :=
    if_neg fun hframes => hk (h.symm.trans hframes.length)
  have haccepted : accepted ≠ badRequest := by decide
  unfold importerAnswer
  split
  · rw [hlength (k := 3) rfl (by decide)]
    exact iff_of_false haccepted fun h => h.1 rfl
  · rename_i appEnv topic body metaFrame
    rw [protocolAnswer]
    by_cases hframes : ProtocolFrames [appEnv,topic,body,metaFrame]
    · rw [if_pos hframes]
      exact iff_of_true (by simp) ⟨(by decide : 4 ≠ 3),fun _ => hframes⟩
    · rw [if_neg hframes]
      refine iff_of_false ?_ fun h => hframes (h.2 rfl)
      split
      · exact fun h => absurd (List.cons.inj h).1 (by decide)
      · exact haccepted
  · rename_i hthree hfour
    have hne (k : ℕ) (h : msg.length = k) : k ≠ 3 ∧ k ≠ 4 := by
      constructor
      · rintro rfl
        obtain ⟨_,_,_,rfl⟩ := List.length_eq_three.mp h
        exact hthree _ _ _ rfl
      · rintro rfl
        obtain ⟨_,_,_,_,rfl⟩ := List.length_eq_four.mp h
        exact hfour _ _ _ _ rfl
    rw [hlength rfl (hne _ rfl).2]
    exact iff_of_true rfl ⟨(hne _ rfl).1,fun h => absurd h (hne _ rfl).2⟩

/-- The importer accepts messages of three frames, and does not care whether it can decode the meta
information of the others. -/
theorem importerConforms_iff : ImporterConforms myFqdn state socket (senderId::frames) ↔
    frames ≠ [] ∧ ∀ msg, frames = []::msg → msg.length ≠ 3 ∧ (msg.length = 4 → ProtocolFrames msg) := by
  cases frames with
  | nil => exact iff_of_false (fun ⟨_,_,h⟩ => nomatch h) fun h => h.1 rfl
  | cons second msg =>
    by_cases hsecond : second = []
    · subst hsecond
      obtain ⟨next,sent,hreply⟩ := importer_with_delimiter myFqdn state socket senderId msg
      rw [ImporterConforms,hreply]
      simp [protocolReply,importerAnswer_eq_iff]
    · refine iff_of_true ?_ ⟨List.cons_ne_nil _ _,fun msg' h => absurd (List.cons.inj h).1 hsecond⟩
      rw [ImporterConforms,protocolReply_of_nonempty hsecond]
      exact importer_without_delimiter hsecond

/-- Both programs follow the protocol, and so behave alike, on the requests without delimiter, and
on those whose frames behind the delimiter are neither missing, nor three, nor four with meta
information that cannot be decoded. -/
theorem producerReplies_iff (myFqdn : Bytes) (uninitialised : MsgMeta) (state : SubscriberState)
    (socket : PushSocket) (senderId : Bytes) (frames : List Bytes) :
    DeviceConforms myFqdn uninitialised (senderId::frames) ∧
      ImporterConforms myFqdn state socket (senderId::frames) ↔
    frames ≠ [] ∧ ∀ msg, frames = []::msg →
      msg ≠ [] ∧ msg.length ≠ 3 ∧ (msg.length = 4 → ProtocolFrames msg) := by
  rw [deviceConforms_iff,importerConforms_iff]
  constructor
  · rintro ⟨⟨hframes,hdelimiter⟩,-,hmsg⟩
    refine ⟨hframes,fun msg h => ⟨?_,hmsg msg h⟩⟩
    rintro rfl
    exact hdelimiter h
  · rintro ⟨hframes,hmsg⟩
    exact ⟨⟨hframes,fun h => (hmsg [] h).1 rfl⟩,hframes,fun msg h => (hmsg msg h).2⟩

end

/-- Nothing behind the delimiter, three frames, and four frames with a short meta frame. -/
theorem producerReplies_malformed :
    readRouterMessageAndForward (lit "host") metaInfoEmpty [lit "id",[]] = .error .absentFrame ∧
    (readRouterMessageAndForward (lit "host") metaInfoEmpty ([lit "id",[]] ++ Importer.sampleFrames)).toOption.map
        Handled.reply = some (some [lit "id",[],lit "400 Bad Request"]) ∧
    (readRouterRequestForward (lit "host") Importer.subscriberStateNew ([lit "id",[]] ++ Importer.sampleFrames)
        ⟨true,true⟩).toOption.map (fun r => r.2.2) = some (some [lit "id",[],lit "202 Accepted"]) ∧
    (readRouterRequestForward (lit "host") Importer.subscriberStateNew
        [lit "id",[],lit "ping",[],lit "\x7b\x7d",lit "short"] ⟨true,true⟩).toOption.map (fun r => r.2.2) =
      some (some [lit "id",[],lit "200 Pong",lit "host"]) := by
  exact ⟨rfl,rfl,rfl,rfl⟩

end Logjam.Relay.Router
