import Logjam.Importer.Controller
import Logjam.Importer.DropReasons
import Logjam.Library.MergeSum

/-! The statistics on frontend messages. They are kept in several places: by every parser, per user agent
by every processor, and by the controller, which adds up those of its parsers. The numbers agree with
each other wherever they are kept, and with the messages. -/
namespace Logjam.Importer
open Logjam.Library Logjam.Library.MergeMap Logjam.Library.Translation

variable {n : ℕ}

instance FeMsgDropReason.instFintype : Fintype FeMsgDropReason where
  elems := {.accepted,.outlier,.navTiming,.illegal,.corrupted,.invalid}
  complete reason := by cases reason <;> decide

/-- Every message has been counted under one reason. -/
structure Tallied (received dropped : ℕ) (dropReasons : FeMsgDropReason → ℕ) : Prop where
  received : received = ∑ reason,dropReasons reason
  dropped : dropped = ∑ reason with reason ≠ .accepted,dropReasons reason

def FrontendStats.Conserved (stats : FrontendStats) : Prop := Tallied stats.received stats.dropped stats.dropReasons

def UserAgentStats.Conserved (stats : UserAgentStats) : Prop :=
  Tallied stats.receivedFrontend stats.feDropped stats.feDropReasons

/-- The statistics of every user agent of every processor. -/
def AgentsConserved (processors : ZHash (Processor n)) : Prop :=
  AllValues (fun p => AllValues UserAgentStats.Conserved p.agents) processors

/-- How many messages have been counted under a reason. -/
def agentsTotal (reason : FeMsgDropReason) (p : Processor n) : ℕ :=
  sumValues (fun stats => stats.feDropReasons reason) p.agents

def reasonTotal (reason : FeMsgDropReason) (processors : ZHash (Processor n)) : ℕ :=
  sumValues (agentsTotal reason) processors

def ParsedMsg.frontendKind (msg : ParsedMsg) : Option FrontendKind :=
  if (lit "frontend.page").isPrefixOf msg.topic then some .page
  else if (lit "frontend.ajax").isPrefixOf msg.topic then some .ajax
  else none

/-- The reason a processor gives for a frontend message. -/
def resolution (env : Env n) (msg : ParsedMsg) : Option FeMsgDropReason :=
  match processorCreate env msg.stream msg.request,msg.frontendKind with
  | .ok (some _),some kind =>
    (processorAddFrontend env processorNew (jsonMembers msg.request) msg.tracked kind).toOption.map Prod.fst
  | _,_ => none

def ParsedMsg.userAgent (lib : JsonLib) (msg : ParsedMsg) : Option Bytes :=
  extractUserAgentFromRequest lib (jsonMembers msg.request)

/-- The message carries a user agent and has been resolved with the reason. -/
def ResolvedWith (env : Env n) (reason : FeMsgDropReason) (msg : ParsedMsg) : Prop :=
  (msg.userAgent env.json).isSome ∧ resolution env msg = some reason

instance (env : Env n) (reason : FeMsgDropReason) : DecidablePred (ResolvedWith env reason) :=
  fun _ => inferInstanceAs (Decidable (_ ∧ _))

/-! Tallies. -/

lemma tallied_zero : Tallied 0 0 0 := ⟨by simp,by simp⟩

lemma tallied_single (reason : FeMsgDropReason) :
    Tallied 1 (if reason = .accepted then 0 else 1) (Pi.single reason 1) := by
  constructor
  · rw [Finset.sum_pi_single',if_pos (Finset.mem_univ reason)]
  · rw [Finset.sum_pi_single']
    simp only [Finset.mem_filter,Finset.mem_univ,true_and,ne_eq,ite_not]

lemma Tallied.add {received dropped received' dropped' : ℕ} {reasons reasons' : FeMsgDropReason → ℕ}
    (h : Tallied received dropped reasons) (h' : Tallied received' dropped' reasons') :
    Tallied (received+received') (dropped+dropped') (reasons+reasons') := by
  constructor
  · simp only [Pi.add_apply,Finset.sum_add_distrib]
    rw [← h.received,← h'.received]
  · simp only [Pi.add_apply,Finset.sum_add_distrib]
    rw [← h.dropped,← h'.dropped]

lemma UserAgentStats.Conserved.add (a b : UserAgentStats) (ha : a.Conserved) (hb : b.Conserved) :
    (a+b).Conserved := Tallied.add ha hb

lemma agentsConserved_add (p q : Processor n) (hp : AllValues UserAgentStats.Conserved p.agents)
    (hq : AllValues UserAgentStats.Conserved q.agents) : AllValues UserAgentStats.Conserved (p+q).agents :=
  AllValues.add UserAgentStats.Conserved.add hp hq

lemma agentsTotal_add (reason : FeMsgDropReason) (p q : Processor n) :
    agentsTotal reason (p+q) = agentsTotal reason p+agentsTotal reason q :=
  sumValues_add (fun _ _ => rfl) p.agents q.agents

lemma reasonTotal_add (reason : FeMsgDropReason) (processors others : ZHash (Processor n)) :
    reasonTotal reason (processors+others) = reasonTotal reason processors+reasonTotal reason others :=
  sumValues_add (agentsTotal_add reason) processors others

/-! What the handlers do to the agents. -/

/-- The statistics that make up one entry, if there is an agent. -/
def agentEntry (agent : Option Bytes) (stats : UserAgentStats) : ZHash UserAgentStats :=
  agent.elim 0 (single · stats)

lemma updateAgent_agents (self : Processor n) (agent : Option Bytes) {f : UserAgentStats → UserAgentStats}
    {d : UserAgentStats} (hf : ∀ s, f s = s+d) :
    (updateAgent self agent f).agents = self.agents+agentEntry agent d := by
  cases agent with
  | none => exact (add_zero _).symm
  | some a =>
    rw [agentEntry,Option.elim,← insert_getD_add,← hf]
    rfl

def backendStats : UserAgentStats := ⟨1,0,0,0⟩

def frontendStats (reason : FeMsgDropReason) : UserAgentStats :=
  ⟨0,1,if reason = .accepted then 0 else 1,Pi.single reason 1⟩

lemma processorAddAgent_agents (lib : JsonLib) (self : Processor n) (request : JObject) :
    ∃ agent,(processorAddAgent lib self request).agents = self.agents+agentEntry agent backendStats :=
  ⟨_,updateAgent_agents self _ fun _ => rfl⟩

lemma processorAddUserAgent_agents (self : Processor n) (agent : Option Bytes) (reason : FeMsgDropReason) :
    (processorAddUserAgent self agent reason).agents = self.agents+agentEntry agent (frontendStats reason) := by
  refine updateAgent_agents self agent fun s => ?_
  apply UserAgentStats.ext
  · rfl
  · rfl
  · change (if reason = .accepted then s.feDropped else s.feDropped+1) = s.feDropped+if reason = .accepted then 0 else 1
    split_ifs <;> rfl
  · exact update_succ s.feDropReasons reason

/-- Modules and agents are kept apart from the aggregates. -/
structure KeepsNames (old new : Processor n) : Prop where
  modules : new.modules = old.modules
  agents : new.agents = old.agents

lemma processorAddQuants_keepsNames (res : Resources n) (self : Processor n) (ns : Bytes) (incs : Increments n) :
    Ensures (processorAddQuants res self ns incs) (KeepsNames self) := by
  refine Ensures.foldlM ?_ ⟨rfl,rfl⟩
  intro p hp i _
  refine Ensures.ite (fun _ => ?_) fun _ => Ensures.ok hp
  cases quantKind res i with
  | none => exact Ensures.ok hp
  | some k => exact (ensures_true _).bind fun _ _ => (ensures_true _).bind fun _ _ => Ensures.ok ⟨hp.modules,hp.agents⟩

lemma processorAddHistogram_keepsNames (self : Processor n) (ns : Bytes) (minute : ℤ) (resource : Bytes)
    (timeIndex : Fin n) (incs : Increments n) :
    KeepsNames self (processorAddHistogram self ns minute resource timeIndex incs) := by
  simp only [processorAddHistogram]
  split <;> exact ⟨rfl,rfl⟩

lemma KeepsNames.trans {p q r : Processor n} (h : KeepsNames p q) (h' : KeepsNames q r) : KeepsNames p r :=
  ⟨h'.modules.trans h.modules,h'.agents.trans h.agents⟩

lemma addAggregates_keepsNames (env : Env n) (self : Processor n) (page module : Bytes) (minute : ℤ) (resource : Bytes)
    (timeIndex : Fin n) (incs : Increments n) :
    Ensures (addAggregates env self page module minute resource timeIndex incs) (KeepsNames self) := by
  refine (processorAddQuants_keepsNames _ _ _ _).bind fun p hp => Ensures.ok ?_
  refine KeepsNames.trans ⟨hp.modules,hp.agents⟩ ?_
  exact ((processorAddHistogram_keepsNames p page minute resource timeIndex incs).trans
    (processorAddHistogram_keepsNames _ module minute resource timeIndex incs)).trans
    (processorAddHistogram_keepsNames _ (lit "all_pages") minute resource timeIndex incs)

lemma processorAddRequest_agents (env : Env n) (info : StreamInfo) (self : Processor n) (request : JObject) :
    Ensures (processorAddRequest env info self request) fun next =>
      ∃ agent,next.agents = self.agents+agentEntry agent backendStats := by
  unfold processorAddRequest
  refine Ensures.ite (fun _ => Ensures.ok ⟨none,(add_zero _).symm⟩) fun _ => ?_
  refine (ensures_true _).bind fun _ _ => ?_
  refine Ensures.bind (P := fun r : Bytes × Processor n => r.2.agents = self.agents)
    ((ensures_true _).bind fun _ _ => Ensures.ok rfl) fun r hr => ?_
  refine (ensures_true _).bind fun _ _ => (ensures_true _).bind fun _ _ => (ensures_true _).bind fun _ _ => ?_
  refine (ensures_true _).bind fun _ _ => (ensures_true _).bind fun incs _ => ?_
  refine (addAggregates_keepsNames env r.2 _ _ _ _ _ incs).bind fun p hp => ?_
  obtain ⟨agent,hagent⟩ := processorAddAgent_agents env.json p _
  exact Ensures.ok ⟨agent,by rw [hagent,hp.agents,hr]⟩

lemma processorAddJsException_agents (env : Env n) (self : Processor n) (request : JObject) :
    Ensures (processorAddJsException env self request) fun next => next.agents = self.agents := by
  unfold processorAddJsException
  refine (ensures_true _).bind fun _ _ => (ensures_true _).bind fun jsException _ => ?_
  refine Ensures.ite (fun _ => Ensures.ok rfl) fun _ => (ensures_true _).bind fun _ _ => ?_
  refine Ensures.bind (P := fun r : Bytes × Processor n => r.2.agents = self.agents)
    ((ensures_true _).bind fun _ _ => Ensures.ok rfl) fun r hr => Ensures.ok ?_
  rw [← hr]
  split_ifs <;> rfl

lemma processorAddFrontend_agents {env : Env n} {self next : Processor n} {request : JObject} {tracked : Bool}
    {kind : FrontendKind} {reason : FeMsgDropReason}
    (h : processorAddFrontend env self request tracked kind = .ok (reason,next)) :
    next.agents = self.agents+agentEntry (extractUserAgentFromRequest env.json request) (frontendStats reason) := by
  obtain ⟨updated,houtcome,rfl⟩ := processorAddFrontend_outcome h
  have hupdated : updated.agents = self.agents := by
    cases houtcome with
    | accepted _ _ _ _ _ hadd =>
      have hkeeps := addAggregates_keepsNames _ _ _ _ _ _ _ _ _ hadd
      exact hkeeps.agents
    | _ => rfl
  rw [processorAddUserAgent_agents,hupdated]

/-! What a message adds. -/

/-- The topics of the other messages start with other letters. -/
lemma frontendKind_eq_none {msg : ParsedMsg} {topic : Bytes}
    (hmem : topic ∈ [lit "logs",lit "javascript",lit "events"]) (h : topic.isPrefixOf msg.topic = true) :
    msg.frontendKind = none := by
  obtain ⟨rest,hrest⟩ := List.isPrefixOf_iff_prefix.mp h
  unfold ParsedMsg.frontendKind
  rw [← hrest]
  simp only [List.mem_cons,List.not_mem_nil,or_false] at hmem
  rcases hmem with rfl | rfl | rfl <;> rfl

section
variable {env : Env n} {msg : ParsedMsg} {state : ParserState n} {dbName : Bytes}

lemma withProcessor_zero {handler : Processor n → Except Fault (Processor n)}
    (h : withProcessor (0 : ParserState n) dbName handler = .ok state) :
    ∃ p,handler { (processorNew : Processor n) with requestCount := 1 } = .ok p ∧ state = ⟨single dbName p,0⟩ := by
  obtain ⟨p,hp,h⟩ := bind_eq_ok_iff.mp h
  exact ⟨p,hp,(Except.ok.inj h).symm⟩

lemma withFrontendProcessor_zero {handler : Processor n → Except Fault (FeMsgDropReason × Processor n)}
    (h : withFrontendProcessor (0 : ParserState n) dbName handler = .ok state) :
    ∃ reason p,handler { (processorNew : Processor n) with requestCount := 1 } = .ok (reason,p) ∧
      state = ⟨single dbName p,(0 : FrontendStats).record reason⟩ := by
  obtain ⟨⟨reason,p⟩,hp,h⟩ := bind_eq_ok_iff.mp h
  exact ⟨reason,p,hp,(Except.ok.inj h).symm⟩

/-- A handler gives the same reason whatever it has seen before. -/
lemma processorAddFrontend_reason {request : JObject} {tracked : Bool} {kind : FrontendKind} {reason : FeMsgDropReason}
    {self next : Processor n} (h : processorAddFrontend env self request tracked kind = .ok (reason,next))
    (other : Processor n) : ∃ p,processorAddFrontend env other request tracked kind = .ok (reason,p) := by
  have htranslation : IsTranslation fun p : Processor n => processorAddFrontend env p request tracked kind := by
    cases kind with
    | page => exact processorAddFrontendData_isTranslation env request tracked
    | ajax => exact processorAddAjaxData_isTranslation env request tracked
  obtain ⟨d,hd⟩ := htranslation.exists_of_eq_ok h
  have hself := htranslation self
  have hother := htranslation other
  simp only at hd hself hother
  rw [h,hd] at hself
  rw [hd] at hother
  obtain ⟨hreason,-⟩ := Prod.mk.inj (Except.ok.inj hself)
  exact ⟨_,hother.trans (congrArg Except.ok (Prod.ext hreason.symm rfl))⟩

/-- A message is resolved with the reason that the processors give for it. -/
theorem resolution_eq_some_iff {reason : FeMsgDropReason} : resolution env msg = some reason ↔
    ∃ target kind,processorCreate env msg.stream msg.request = .ok (some target) ∧ msg.frontendKind = some kind ∧
      ∀ self : Processor n,∃ next,
        processorAddFrontend env self (jsonMembers msg.request) msg.tracked kind = .ok (reason,next) := by
  unfold resolution
  constructor
  · intro h
    split at h
    · rename_i target kind htarget hkind
      rw [Option.map_eq_some_iff] at h
      obtain ⟨⟨r,next⟩,hnext,rfl⟩ := h
      cases hadd : processorAddFrontend env processorNew (jsonMembers msg.request) msg.tracked kind with
      | error e =>
        rw [hadd] at hnext
        cases hnext
      | ok result =>
        rw [hadd] at hnext
        obtain rfl : result = (r,next) := Option.some.inj hnext
        exact ⟨target,kind,htarget,hkind,processorAddFrontend_reason hadd⟩
    · cases h
  · rintro ⟨target,kind,htarget,hkind,hall⟩
    obtain ⟨next,hnext⟩ := hall processorNew
    rw [htarget,hkind]
    simp only [hnext]
    rfl

/-- What a message that the parser gets through adds to the statistics. -/
inductive Effect (env : Env n) (msg : ParsedMsg) : ParserState n → Prop
  | unknown (hreason : resolution env msg = none) : Effect env msg 0
  | other {dbName p} (agent : Option Bytes) (hreason : resolution env msg = none)
      (hagents : p.agents = agentEntry agent backendStats) : Effect env msg ⟨single dbName p,0⟩
  | frontend {dbName p reason} (hreason : resolution env msg = some reason)
      (hagents : p.agents = agentEntry (msg.userAgent env.json) (frontendStats reason)) :
      Effect env msg ⟨single dbName p,(0 : FrontendStats).record reason⟩

lemma resolution_of_kind_eq_none (h : msg.frontendKind = none) : resolution env msg = none := by
  unfold resolution
  rw [h]
  split
  · rename_i hkind
    cases hkind
  · rfl

lemma resolution_of_unknown (h : processorCreate env msg.stream msg.request = .ok none) : resolution env msg = none := by
  unfold resolution
  rw [h]

/-- What the parser has done with its first message after a tick, when it gets through. -/
inductive Forwarded (env : Env n) (msg : ParsedMsg) : ParserState n → Prop
  | unknown (htarget : processorCreate env msg.stream msg.request = .ok none) : Forwarded env msg 0
  | request {dbName info p} (hkind : msg.frontendKind = none)
      (hp : processorAddRequest env info { (processorNew : Processor n) with requestCount := 1 }
        (jsonMembers msg.request) = .ok p) : Forwarded env msg ⟨single dbName p,0⟩
  | jsException {dbName p} (hkind : msg.frontendKind = none)
      (hp : processorAddJsException env { (processorNew : Processor n) with requestCount := 1 }
        (jsonMembers msg.request) = .ok p) : Forwarded env msg ⟨single dbName p,0⟩
  | event {dbName p} (hkind : msg.frontendKind = none)
      (hp : processorAddEvent env { (processorNew : Processor n) with requestCount := 1 }
        (jsonMembers msg.request) = .ok p) : Forwarded env msg ⟨single dbName p,0⟩
  | frontend {dbName info kind reason p} (htarget : processorCreate env msg.stream msg.request = .ok (some (dbName,info)))
      (hkind : msg.frontendKind = some kind)
      (hp : processorAddFrontend env { (processorNew : Processor n) with requestCount := 1 }
        (jsonMembers msg.request) msg.tracked kind = .ok (reason,p)) :
      Forwarded env msg ⟨single dbName p,(0 : FrontendStats).record reason⟩
  | other {dbName : Bytes} (hkind : msg.frontendKind = none) :
      Forwarded env msg ⟨single dbName { (processorNew : Processor n) with requestCount := 1 },0⟩

lemma forwardRequest_cases (h : forwardRequest env 0 msg = .ok state) : Forwarded env msg state := by
  obtain ⟨target,htarget,h⟩ := bind_eq_ok_iff.mp h
  cases target with
  | none =>
    obtain rfl := Except.ok.inj h
    exact .unknown htarget
  | some target =>
    obtain ⟨dbName,info⟩ := target
    simp only [handleMsg] at h
    split_ifs at h with hlogs hjavascript hevents hpage hajax
    · obtain ⟨p,hp,rfl⟩ := withProcessor_zero h
      exact .request (frontendKind_eq_none (by simp) hlogs) hp
    · obtain ⟨p,hp,rfl⟩ := withProcessor_zero h
      exact .jsException (frontendKind_eq_none (by simp) hjavascript) hp
    · obtain ⟨p,hp,rfl⟩ := withProcessor_zero h
      exact .event (frontendKind_eq_none (by simp) hevents) hp
    · have hkind : msg.frontendKind = some .page := if_pos hpage
      obtain ⟨reason,p,hp,rfl⟩ := withFrontendProcessor_zero h
      exact .frontend htarget hkind hp
    · have hkind : msg.frontendKind = some .ajax := (if_neg hpage).trans (if_pos hajax)
      obtain ⟨reason,p,hp,rfl⟩ := withFrontendProcessor_zero h
      exact .frontend htarget hkind hp
    · obtain ⟨p,hp,rfl⟩ := withProcessor_zero h
      obtain rfl := Except.ok.inj hp
      exact .other ((if_neg hpage).trans (if_neg hajax))

theorem forwardRequest_effect (h : forwardRequest env 0 msg = .ok state) : Effect env msg state := by
  cases forwardRequest_cases h with
  | unknown htarget => exact .unknown (resolution_of_unknown htarget)
  | request hkind hp =>
    obtain ⟨agent,hagent⟩ := processorAddRequest_agents _ _ _ _ _ hp
    exact .other agent (resolution_of_kind_eq_none hkind) (hagent.trans (zero_add _))
  | jsException hkind hp =>
    exact .other none (resolution_of_kind_eq_none hkind) (processorAddJsException_agents _ _ _ _ hp)
  | event hkind hp =>
    obtain ⟨minute,-,hminute⟩ := bind_eq_ok_iff.mp hp
    obtain rfl := Except.ok.inj hminute
    exact .other none (resolution_of_kind_eq_none hkind) rfl
  | @frontend _ _ kind _ _ htarget hkind hp =>
    have hresolution := resolution_eq_some_iff.mpr ⟨_,kind,htarget,hkind,processorAddFrontend_reason hp⟩
    exact .frontend hresolution ((processorAddFrontend_agents hp).trans (zero_add _))
  | other hkind => exact .other none (resolution_of_kind_eq_none hkind) rfl

end

/-! Runs. -/

/-- The statistics agree with each other and with the messages. -/
structure Reported (env : Env n) (msgs : List ParsedMsg) (state : ParserState n) : Prop where
  stats : state.feStats.Conserved
  agents : AgentsConserved state.processors
  resolved : ∀ reason,reasonTotal reason state.processors = msgs.countP (ResolvedWith env reason)

section
variable {env : Env n}

lemma reported_zero : Reported env [] 0 where
  stats := tallied_zero
  agents := allValues_zero
  resolved reason := sumValues_zero (agentsTotal reason)

lemma Reported.add {msgs msgs' : List ParsedMsg} {state state' : ParserState n} (h : Reported env msgs state)
    (h' : Reported env msgs' state') : Reported env (msgs++msgs') (state+state') where
  stats := Tallied.add h.stats h'.stats
  agents := AllValues.add agentsConserved_add h.agents h'.agents
  resolved reason := by
    rw [ParserState.add_processors,reasonTotal_add,List.countP_append,h.resolved,h'.resolved]

lemma agentEntry_conserved {agent : Option Bytes} {stats : UserAgentStats} (h : stats.Conserved) :
    AllValues UserAgentStats.Conserved (agentEntry agent stats) := by
  cases agent with
  | none => exact allValues_zero
  | some a => exact allValues_single h

lemma agentsTotal_agentEntry {p : Processor n} {agent : Option Bytes} {stats : UserAgentStats}
    (h : p.agents = agentEntry agent stats) (reason : FeMsgDropReason) :
    agentsTotal reason p = if agent.isSome then stats.feDropReasons reason else 0 := by
  rw [agentsTotal,h]
  cases agent with
  | none => exact sumValues_zero _
  | some a => exact sumValues_single (fun _ _ => rfl) a stats

lemma reasonTotal_single (reason : FeMsgDropReason) (dbName : Bytes) (p : Processor n) :
    reasonTotal reason (single dbName p) = agentsTotal reason p :=
  sumValues_single (agentsTotal_add reason) dbName p

lemma Effect.reported {msg : ParsedMsg} {state : ParserState n} (h : Effect env msg state) :
    Reported env [msg] state := by
  cases h with
  | unknown hreason =>
    refine ⟨tallied_zero,allValues_zero,fun reason => ?_⟩
    have hnone : ¬ResolvedWith env reason msg := by simp [ResolvedWith,hreason]
    rw [List.countP_singleton,decide_eq_false hnone]
    exact sumValues_zero _
  | other agent hreason hagents =>
    refine ⟨tallied_zero,allValues_single (hagents ▸ agentEntry_conserved tallied_zero),fun reason => ?_⟩
    have hnone : ¬ResolvedWith env reason msg := by simp [ResolvedWith,hreason]
    rw [List.countP_singleton,decide_eq_false hnone,reasonTotal_single,agentsTotal_agentEntry hagents]
    exact ite_self 0
  | @frontend dbName p given hreason hagents =>
    refine ⟨?_,allValues_single (hagents ▸ agentEntry_conserved (tallied_single given)),fun reason => ?_⟩
    · rw [record_eq_add,zero_add]
      exact tallied_single given
    · rw [List.countP_singleton,reasonTotal_single,agentsTotal_agentEntry hagents]
      simp only [ResolvedWith,hreason,frontendStats,Option.some.injEq,decide_eq_true_eq,ite_and]
      refine if_congr Iff.rfl ?_ rfl
      rw [Pi.single_apply]
      exact if_congr eq_comm rfl rfl

/-- How a message is resolved does not depend on the settings of its stream. -/
lemma resolution_withSettings (env : Env n) (info : StreamInfo) (msg : ParsedMsg) :
    resolution (env.withSettings info) msg = resolution env msg := by
  unfold resolution
  rw [processorCreate_withSettings]
  cases processorCreate env msg.stream msg.request with
  | error e => rfl
  | ok target => cases target <;> cases msg.frontendKind <;> rfl

lemma Effect.of_withSettings {info : StreamInfo} {msg : ParsedMsg} {state : ParserState n}
    (h : Effect (env.withSettings info) msg state) : Effect env msg state := by
  cases h with
  | unknown hreason => exact .unknown (resolution_withSettings env info msg ▸ hreason)
  | other agent hreason hagents => exact .other agent (resolution_withSettings env info msg ▸ hreason) hagents
  | frontend hreason hagents => exact .frontend (resolution_withSettings env info msg ▸ hreason) hagents

/-- Whatever messages a parser has got. -/
theorem parseMsgs_reported {msgs : List ParsedMsg} {state : ParserState n} (h : parseMsgs env msgs = .ok state) :
    Reported env msgs state := by
  obtain ⟨contributions,hall,rfl⟩ := parseMsgs_eq_sum h
  clear h
  induction hall with
  | nil => exact reported_zero
  | cons hc _ ih =>
    obtain ⟨info,hc⟩ := hc
    exact (forwardRequest_effect hc).of_withSettings.reported.add ih

end

end Logjam.Importer

namespace Logjam.Importer.Controller
open Logjam.Library Logjam.Library.MergeMap Logjam.Library.PairwiseMerge Logjam.Importer

variable {n : ℕ} {env : Env n}

def addFrontendStats (stats : FrontendStats) (state : ParserState n) : FrontendStats where
  received := stats.received+state.feStats.received
  dropped := stats.dropped+state.feStats.dropped
  dropReasons j := stats.dropReasons j+state.feStats.dropReasons j

/-- The controller adds up the statistics of its parsers. -/
def frontStats : List (ParserState n) → FrontendStats
  | [] => 0
  | first :: rest => rest.foldl addFrontendStats first.feStats

lemma foldl_addFrontendStats_conserved {states : List (ParserState n)} {stats : FrontendStats} (h : stats.Conserved)
    (hstates : ∀ state ∈ states,state.feStats.Conserved) : (states.foldl addFrontendStats stats).Conserved := by
  induction states generalizing stats with
  | nil => exact h
  | cons state states ih =>
    rw [List.forall_mem_cons] at hstates
    have hadd : (addFrontendStats stats state).Conserved := Tallied.add h hstates.1
    exact ih hadd hstates.2

lemma frontStats_conserved {states : List (ParserState n)} (h : ∀ state ∈ states,state.feStats.Conserved) :
    (frontStats states).Conserved := by
  cases states with
  | nil => exact tallied_zero
  | cons first rest =>
    rw [List.forall_mem_cons] at h
    exact foldl_addFrontendStats_conserved h.1 h.2

lemma mapM_parseMsgs_reported {tick : Tick n} {states : List (ParserState n)}
    (h : tick.parsers.mapM (parseMsgs env) = .ok states) : List.Forall₂ (Reported env) tick.parsers states :=
  (mapM_eq_ok_iff.mp h).imp fun _ _ => parseMsgs_reported

lemma conserved_of_forall₂ {parsers : List (List ParsedMsg)} {states : List (ParserState n)}
    (h : List.Forall₂ (Reported env) parsers states) :
    ∀ state ∈ states,state.feStats.Conserved ∧ AgentsConserved state.processors :=
  ((List.forall₂_and_left _ _).mp (h.flip.imp fun _ _ hr => ⟨⟨hr.stats,hr.agents⟩,hr⟩)).1

lemma agentsConserved_of_forall₂ {parsers : List (List ParsedMsg)} {states : List (ParserState n)}
    (h : List.Forall₂ (Reported env) parsers states) :
    ∀ hash ∈ states.map ParserState.processors,AgentsConserved hash :=
  List.forall_mem_map.mpr fun state hstate => (conserved_of_forall₂ h state hstate).2

lemma reasonTotal_sum (reason : FeMsgDropReason) (hashes : List (ZHash (Processor n))) :
    reasonTotal reason hashes.sum = (hashes.map (reasonTotal reason)).sum := by
  induction hashes with
  | nil => exact sumValues_zero _
  | cons hash hashes ih => rw [List.sum_cons,reasonTotal_add,ih,List.map_cons,List.sum_cons]

lemma collectStats_conserved {collected : List (ZHash (Processor n))} (h : ∀ hash ∈ collected,AgentsConserved hash)
    (tick : Tick n) : Ensures (collectStats env collected tick) fun next => ∀ hash ∈ next,AgentsConserved hash := by
  intro next hnext
  obtain ⟨states,hstates,hnext⟩ := bind_eq_ok_iff.mp hnext
  have hmerged : ∀ hash ∈ mergeProcessors tick.within (states.map ParserState.processors),AgentsConserved hash :=
    mergeRounds_allValues agentsConserved_add _ _ (agentsConserved_of_forall₂ (mapM_parseMsgs_reported hstates))
  split at hnext
  · obtain rfl := Except.ok.inj hnext
    exact h
  · rename_i merged rest heq
    rw [heq,List.forall_mem_cons] at hmerged
    obtain rfl := Except.ok.inj hnext
    have happend : ∀ hash ∈ collected ++ [merged],AgentsConserved hash := by
      simpa [or_imp,forall_and] using ⟨h,hmerged.1⟩
    split_ifs
    · exact mergeRounds_allValues agentsConserved_add _ _ happend
    · exact happend

/-- All hashes the controller has forwarded or still holds. -/
def ControllerState.hashes (state : ControllerState n) : List (ZHash (Processor n)) :=
  state.forwarded ++ state.collectedProcessors

lemma collectStatsAndForward_step {state : ControllerState n} (h : ∀ hash ∈ state.hashes,AgentsConserved hash)
    (tick : Tick n) :
    Ensures (collectStatsAndForward env state tick) fun next => ∀ hash ∈ next.hashes,AgentsConserved hash := by
  rw [ControllerState.hashes,List.forall_mem_append] at h
  refine (collectStats_conserved h.2 tick).bind fun collected hcollected => ?_
  refine Ensures.ite (fun _ => ?_) fun _ => Ensures.ok ?_
  · cases collected with
    | nil =>
      refine Ensures.ok ?_
      rw [ControllerState.hashes,List.forall_mem_append]
      exact ⟨h.1,hcollected⟩
    | cons processors rest =>
      refine Ensures.ok ?_
      rw [List.forall_mem_cons] at hcollected
      rw [ControllerState.hashes,List.forall_mem_append,List.forall_mem_append,List.forall_mem_singleton]
      exact ⟨⟨h.1,hcollected.1⟩,hcollected.2⟩
  · rw [ControllerState.hashes,List.forall_mem_append]
    exact ⟨h.1,hcollected⟩

/-- What the processors of some parsers have counted together. -/
lemma sum_reasonTotal {parsers : List (List ParsedMsg)} {states : List (ParserState n)}
    (h : List.Forall₂ (Reported env) parsers states) (reason : FeMsgDropReason) :
    ((states.map ParserState.processors).map (reasonTotal reason)).sum = parsers.flatten.countP (ResolvedWith env reason) := by
  induction h with
  | nil => rfl
  | cons hr _ ih =>
    rw [List.map_cons,List.map_cons,List.sum_cons,ih,hr.resolved,List.flatten_cons,List.countP_append]

lemma flatten_reported {ticks : List (Tick n)} {parsed : List (List (ParserState n))}
    (h : List.Forall₂ (fun tick states => tick.parsers.mapM (parseMsgs env) = .ok states) ticks parsed) :
    List.Forall₂ (Reported env) (ticks.map Tick.parsers).flatten parsed.flatten := by
  induction h with
  | nil => exact .nil
  | cons hstates _ ih => exact List.rel_append (mapM_parseMsgs_reported hstates) ih

/-- Whatever the messages, the parsers and the order in which the adders answer: the statistics on
frontend messages are consistent in every parser at every tick, in what the controller adds up, in every
round of a merge, and in all that is forwarded; and every frontend message with a user agent is counted
once, under the reason it was resolved with. -/
theorem collectStatsAndForward_conserved {ticks : List (Tick n)} {final : ControllerState n}
    (hrun : ticks.foldlM (collectStatsAndForward env) ⟨0,[],[]⟩ = .ok final) :
    (∀ tick ∈ ticks,∃ states,tick.parsers.mapM (parseMsgs env) = .ok states ∧
      List.Forall₂ (Reported env) tick.parsers states ∧ (frontStats states).Conserved ∧
      ∀ rounds,∀ hash ∈ mergeRounds handleAddition tick.within rounds (states.map ParserState.processors),
        AgentsConserved hash) ∧
    (∀ hash ∈ final.hashes,AgentsConserved hash) ∧
    ∀ reason,(final.hashes.map (reasonTotal reason)).sum =
      (ticks.map Tick.messages).flatten.countP (ResolvedWith env reason) := by
  refine ⟨fun tick htick => ?_,?_,fun reason => ?_⟩
  · obtain ⟨states,hstates⟩ := forall_of_foldlM (fun _ _ _ => exists_parsed) hrun tick htick
    have hreported := mapM_parseMsgs_reported hstates
    have hfront := frontStats_conserved fun state hstate => (conserved_of_forall₂ hreported state hstate).1
    exact ⟨states,hstates,hreported,hfront,fun rounds =>
      mergeRounds_allValues agentsConserved_add _ _ (agentsConserved_of_forall₂ hreported)⟩
  · refine Ensures.foldlM (P := fun state => ∀ hash ∈ state.hashes,AgentsConserved hash)
      (fun state h tick _ => collectStatsAndForward_step h tick) ?_ final hrun
    simp [ControllerState.hashes]
  · obtain ⟨parsed,hparsed,htotal⟩ := foldlM_collectStatsAndForward_total hrun
    have hsum : final.hashes.sum = (parsed.flatten.map ParserState.processors).sum := by
      rw [ControllerState.hashes,List.sum_append]
      refine htotal.trans ?_
      rw [ControllerState.total,List.sum_nil,zero_add,zero_add]
    have hmessages : (ticks.map Tick.messages).flatten = (ticks.map Tick.parsers).flatten.flatten := by
      rw [List.flatten_flatten,List.map_map]
      rfl
    rw [← reasonTotal_sum,hsum,reasonTotal_sum,sum_reasonTotal (flatten_reported hparsed),hmessages]

theorem sampleTicks_conserved : ∃ final,
    sampleTicks.foldlM (collectStatsAndForward sampleEnv) ⟨0,[],[]⟩ = .ok final ∧
      (∀ hash ∈ final.hashes,AgentsConserved hash) ∧ (final.hashes.map (reasonTotal .accepted)).sum = 1 := by
  obtain ⟨final,hrun⟩ : ∃ final,sampleTicks.foldlM (collectStatsAndForward sampleEnv) ⟨0,[],[]⟩ = .ok final :=
    exists_ok_of_isOk (by decide +kernel)
  obtain ⟨-,hhashes,hresolved⟩ := collectStatsAndForward_conserved hrun
  exact ⟨final,hrun,hhashes,(hresolved .accepted).trans (by decide +kernel)⟩

end Logjam.Importer.Controller
