import Logjam.Basic.Bytes

/-! The filters of the subscribers' sockets. The stream updater fetches the configured streams and selects
those that match the pattern; every subscriber brings the filters of its socket in line with the list from
time to time, by subscribing to what is new and unsubscribing from what is gone. The subscribers of
the importer and of the graylog forwarder do this in the same way. -/
namespace Logjam.Subscriptions

/-! Lists. -/

def zlistToHash (list : List Bytes) : Std.ExtTreeMap Bytes Unit compare :=
  list.foldl (fun hash elem => hash.insertIfNew elem ()) ∅

def zlistAdded (old new : List Bytes) : List Bytes :=
  let oldSet := zlistToHash old
  new.foldl (fun added elem => if oldSet[elem]? = none then added ++ [elem] else added) []

def zlistDeleted (old new : List Bytes) : List Bytes :=
  let newSet := zlistToHash new
  old.foldl (fun deleted elem => if newSet[elem]? = none then deleted ++ [elem] else deleted) []

/-! The configuration. -/

/-- The answer to get_streams: the keys of a hash, in the order in which it is traversed. -/
structure Streams where
  keys : List Bytes
  nodup : keys.Nodup

structure StreamConfig where
  subscriptionPattern : Bytes
  haveSubscriptionPattern : Bool
  streamSubscriptions : List Bytes
  activeStreamNames : List Bytes

/-- The round of the loop of update_stream_config for one stream. -/
def selectStream (config : StreamConfig) (lists : List Bytes × List Bytes) (key : Bytes) : List Bytes × List Bytes :=
  if !config.haveSubscriptionPattern then (lists.1,lists.2 ++ [key])
  else if strstr key config.subscriptionPattern ≠ none then (lists.1 ++ [key],lists.2 ++ [key])
  else lists

/-- If the streams cannot be retrieved, everything stays as it is. -/
def updateStreamConfig (config : StreamConfig) : Option Streams → StreamConfig
  | none => config
  | some newStreams =>
    let lists := newStreams.keys.foldl (selectStream config) ([],[])
    { config with streamSubscriptions := lists.1, activeStreamNames := lists.2 }

/-- The programs only start with a configuration. -/
def setupStreamConfig (pattern : Bytes) (newStreams : Streams) : StreamConfig :=
  updateStreamConfig ⟨pattern,pattern ≠ lit "",[],[]⟩ (some newStreams)

/-! The subscribers. -/

structure SubscriberState where
  /-- Null until the first call. -/
  subscriptions : Option (List Bytes)
  /-- The filters of the SUB socket, with multiplicity. -/
  filters : Multiset Bytes

def subscriberStateNew : SubscriberState := ⟨none,0⟩

def zsockSetSubscribe (filters : Multiset Bytes) (filter : Bytes) : Multiset Bytes := filter ::ₘ filters

def zsockSetUnsubscribe (filters : Multiset Bytes) (filter : Bytes) : Multiset Bytes := filters.erase filter

def updateSubscriptions (pattern : Bytes) (state : SubscriberState) (subscriptions : List Bytes) : SubscriberState :=
  if pattern = lit "" then
    match state.subscriptions with
    | none => ⟨some [],zsockSetSubscribe state.filters (lit "")⟩
    | some _ => state
  else
    let (current,filters) :=
      match state.subscriptions with
      | none => ([],zsockSetSubscribe state.filters (lit "heartbeat"))
      | some current => (current,state.filters)
    let filters := (zlistAdded current subscriptions).foldl zsockSetSubscribe filters
    let filters := (zlistDeleted current subscriptions).foldl zsockSetUnsubscribe filters
    ⟨some current,filters⟩

def setupSubscriptions (config : StreamConfig) (state : SubscriberState) : SubscriberState :=
  let newSubscriptions := config.streamSubscriptions
  let state := updateSubscriptions config.subscriptionPattern state newSubscriptions
  { state with subscriptions := some newSubscriptions }

/-! The programs. -/

inductive Program
  | importer (numSubscribers : ℕ)
  | graylogForwarder

def Program.numSubscribers : Program → ℕ
  | .importer numSubscribers => numSubscribers
  | .graylogForwarder => 1

structure System (program : Program) where
  config : StreamConfig
  subscribers : Fin program.numSubscribers → SubscriberState

inductive Event (program : Program)
  /-- The timer of the stream updater: the streams may or may not be retrieved. -/
  | updateStreams (newStreams : Option Streams)
  /-- A subscriber sets up its subscriptions, at startup or when its timer expires. -/
  | setup (i : Fin program.numSubscribers)

variable {program : Program}

def System.start (program : Program) (pattern : Bytes) (newStreams : Streams) : System program :=
  ⟨setupStreamConfig pattern newStreams,fun _ => subscriberStateNew⟩

def System.step (s : System program) : Event program → System program
  | .updateStreams newStreams => { s with config := updateStreamConfig s.config newStreams }
  | .setup i => { s with subscribers := Function.update s.subscribers i (setupSubscriptions s.config (s.subscribers i)) }

def System.run (s : System program) (events : List (Event program)) : System program := events.foldl System.step s

/-! What the filters should be. -/

def Event.streams (streams : Streams) : Event program → Streams
  | .updateStreams newStreams => newStreams.getD streams
  | .setup _ => streams

/-- The streams that were retrieved last. -/
def currentStreams (newStreams : Streams) (events : List (Event program)) : Streams :=
  events.foldl (fun streams event => event.streams streams) newStreams

def matching (pattern : Bytes) (streams : Streams) : List Bytes :=
  streams.keys.filter fun key => strstr key pattern ≠ none

def wanted (pattern : Bytes) (subscriptions : List Bytes) : Multiset Bytes :=
  if pattern = lit "" then {lit ""} else lit "heartbeat" ::ₘ (subscriptions : Multiset Bytes)

/-! The two list subtractions. -/

lemma getElem?_foldl_insertIfNew (list : List Bytes) (hash : Std.ExtTreeMap Bytes Unit compare) (elem : Bytes) :
    (list.foldl (fun hash elem => hash.insertIfNew elem ()) hash)[elem]? = none ↔ hash[elem]? = none ∧ elem ∉ list := by
  induction list generalizing hash with
  | nil => simp
  | cons e list ih =>
    rw [List.foldl_cons,ih,List.mem_cons,not_or,← and_assoc]
    refine and_congr_left fun _ => ?_
    simp only [← Option.not_isSome_iff_eq_none,← Std.ExtTreeMap.mem_iff_isSome_getElem?,
      Std.ExtTreeMap.mem_insertIfNew,not_or,Std.compare_eq_iff_eq]
    rw [and_comm,eq_comm]

lemma zlistToHash_eq_none {list : List Bytes} {elem : Bytes} : (zlistToHash list)[elem]? = none ↔ elem ∉ list := by
  rw [zlistToHash,getElem?_foldl_insertIfNew]
  exact and_iff_right Std.ExtTreeMap.getElem?_empty

lemma foldl_append_filter {p : Bytes → Prop} [DecidablePred p] (list acc : List Bytes) :
    list.foldl (fun acc elem => if p elem then acc ++ [elem] else acc) acc = acc ++ list.filter p := by
  induction list generalizing acc with
  | nil => simp
  | cons e list ih =>
    rw [List.foldl_cons,ih]
    by_cases he : p e <;> simp [he]

lemma zlistAdded_eq (old new : List Bytes) : zlistAdded old new = new.filter (· ∉ old) := by
  rw [zlistAdded,foldl_append_filter,List.nil_append]
  exact List.filter_congr fun e _ => decide_eq_decide.mpr zlistToHash_eq_none

lemma zlistDeleted_eq (old new : List Bytes) : zlistDeleted old new = old.filter (· ∉ new) := by
  rw [zlistDeleted,foldl_append_filter,List.nil_append]
  exact List.filter_congr fun e _ => decide_eq_decide.mpr zlistToHash_eq_none

lemma foldl_zsockSetSubscribe (list : List Bytes) (filters : Multiset Bytes) :
    list.foldl zsockSetSubscribe filters = (list : Multiset Bytes)+filters := by
  induction list generalizing filters with
  | nil => simp
  | cons e list ih =>
    rw [List.foldl_cons,ih,zsockSetSubscribe,← Multiset.cons_coe,Multiset.add_cons,Multiset.cons_add]

lemma foldl_zsockSetUnsubscribe (list : List Bytes) (filters : Multiset Bytes) :
    list.foldl zsockSetUnsubscribe filters = filters-(list : Multiset Bytes) := by
  induction list generalizing filters with
  | nil => simp
  | cons e list ih =>
    rw [List.foldl_cons,ih,zsockSetUnsubscribe,← Multiset.cons_coe,Multiset.sub_cons]

/-- Adding what is new and removing what is gone leads from one list to the other. -/
lemma add_sub_filter {old new : List Bytes} (hold : old.Nodup) (hnew : new.Nodup) (others : Multiset Bytes) :
    ((new.filter (· ∉ old) : List Bytes) : Multiset Bytes)+(others+old)-(old.filter (· ∉ new) : List Bytes) =
      others+new := by
  ext e
  have hcount {list : List Bytes} (h : list.Nodup) : (list : Multiset Bytes).count e = if e ∈ list then 1 else 0 :=
    (Multiset.count_eq_of_nodup (Multiset.coe_nodup.mpr h)).trans (if_congr Multiset.mem_coe rfl rfl)
  rw [Multiset.count_sub,Multiset.count_add,Multiset.count_add,Multiset.count_add,hcount hold,hcount hnew,
    hcount (hold.filter _),hcount (hnew.filter _)]
  by_cases ho : e ∈ old <;> by_cases hn : e ∈ new <;> simp [ho,hn,add_comm]

/-! One subscriber. -/

/-- Nothing has been subscribed to, or the filters are those for the subscriptions. -/
structure InLine (pattern : Bytes) (state : SubscriberState) : Prop where
  silent : state.subscriptions = none → state.filters = 0
  filters : ∀ list,state.subscriptions = some list → list.Nodup ∧ state.filters = wanted pattern list

lemma inLine_new (pattern : Bytes) : InLine pattern subscriberStateNew := ⟨fun _ => rfl,nofun⟩

lemma wanted_of_ne {pattern : Bytes} (h : pattern ≠ lit "") (list : List Bytes) :
    wanted pattern list = {lit "heartbeat"}+(list : Multiset Bytes) := by
  rw [wanted,if_neg h,Multiset.singleton_add]

lemma updateSubscriptions_filters {pattern : Bytes} {state : SubscriberState} (h : InLine pattern state)
    {subscriptions : List Bytes} (hnodup : subscriptions.Nodup) :
    (updateSubscriptions pattern state subscriptions).filters = wanted pattern subscriptions := by
  unfold updateSubscriptions
  by_cases hpattern : pattern = lit ""
  · rw [if_pos hpattern,wanted,if_pos hpattern]
    cases hstate : state.subscriptions with
    | none => exact congrArg (lit "" ::ₘ ·) (h.silent hstate)
    | some list =>
      have hfilters := (h.filters list hstate).2
      rw [wanted,if_pos hpattern] at hfilters
      exact hfilters
  · rw [if_neg hpattern,wanted_of_ne hpattern]
    cases hstate : state.subscriptions with
    | none =>
      simp only [foldl_zsockSetSubscribe,foldl_zsockSetUnsubscribe,zlistAdded_eq,zlistDeleted_eq]
      have hsum := add_sub_filter List.nodup_nil hnodup {lit "heartbeat"}
      rw [h.silent hstate]
      exact hsum
    | some current =>
      obtain ⟨hcurrent,hfilters⟩ := h.filters current hstate
      simp only [foldl_zsockSetSubscribe,foldl_zsockSetUnsubscribe,zlistAdded_eq,zlistDeleted_eq]
      rw [hfilters,wanted_of_ne hpattern]
      exact add_sub_filter hcurrent hnodup {lit "heartbeat"}

/-! The configuration. -/

/-- The configuration is that of the streams, for the pattern. -/
structure Configured (pattern : Bytes) (streams : Streams) (config : StreamConfig) : Prop where
  samePattern : config.subscriptionPattern = pattern
  havePattern : config.haveSubscriptionPattern = decide (pattern ≠ lit "")
  subscriptions : config.streamSubscriptions = if pattern = lit "" then [] else matching pattern streams

lemma foldl_selectStream (config : StreamConfig) (keys : List Bytes) (lists : List Bytes × List Bytes) :
    (keys.foldl (selectStream config) lists).1 = lists.1 ++
      if config.haveSubscriptionPattern then keys.filter fun key => strstr key config.subscriptionPattern ≠ none else [] := by
  induction keys generalizing lists with
  | nil => simp
  | cons key keys ih =>
    rw [List.foldl_cons,ih,selectStream]
    cases config.haveSubscriptionPattern with
    | false => rfl
    | true =>
      by_cases hkey : strstr key config.subscriptionPattern = none <;> simp [hkey]

lemma updateStreamConfig_configured {pattern : Bytes} {streams : Streams} {config : StreamConfig}
    (h : Configured pattern streams config) (newStreams : Option Streams) :
    Configured pattern (newStreams.getD streams) (updateStreamConfig config newStreams) := by
  cases newStreams with
  | none => exact h
  | some newStreams =>
    refine ⟨h.samePattern,h.havePattern,?_⟩
    rw [updateStreamConfig,foldl_selectStream,h.havePattern,h.samePattern,List.nil_append]
    by_cases hpattern : pattern = lit "" <;> simp [hpattern,matching]

lemma setupStreamConfig_configured (pattern : Bytes) (streams : Streams) :
    Configured pattern streams (setupStreamConfig pattern streams) := by
  refine ⟨rfl,rfl,?_⟩
  rw [setupStreamConfig,updateStreamConfig,foldl_selectStream,List.nil_append]
  by_cases hpattern : pattern = lit "" <;> simp [hpattern,matching]

lemma Configured.nodup {pattern : Bytes} {streams : Streams} {config : StreamConfig}
    (h : Configured pattern streams config) : config.streamSubscriptions.Nodup := by
  rw [h.subscriptions]
  split_ifs
  · exact List.nodup_nil
  · exact streams.nodup.filter _

/-! Runs. -/

/-- The configuration is up to date and the filters of every subscriber are in line. -/
structure System.Sound (pattern : Bytes) (streams : Streams) (s : System program) : Prop where
  config : Configured pattern streams s.config
  subscribers : ∀ i,InLine pattern (s.subscribers i)

lemma setupSubscriptions_filters {pattern : Bytes} {streams : Streams} {config : StreamConfig} {state : SubscriberState}
    (hconfig : Configured pattern streams config) (h : InLine pattern state) :
    (setupSubscriptions config state).filters = wanted pattern config.streamSubscriptions := by
  rw [setupSubscriptions,hconfig.samePattern]
  exact updateSubscriptions_filters h hconfig.nodup

lemma setupSubscriptions_inLine {pattern : Bytes} {streams : Streams} {config : StreamConfig} {state : SubscriberState}
    (hconfig : Configured pattern streams config) (h : InLine pattern state) :
    InLine pattern (setupSubscriptions config state) := by
  refine ⟨nofun,fun list hlist => ?_⟩
  obtain rfl : config.streamSubscriptions = list := Option.some.inj hlist
  exact ⟨hconfig.nodup,setupSubscriptions_filters hconfig h⟩

lemma System.Sound.step {pattern : Bytes} {streams : Streams} {s : System program} (h : s.Sound pattern streams)
    (event : Event program) : (s.step event).Sound pattern (event.streams streams) := by
  cases event with
  | updateStreams newStreams => exact ⟨updateStreamConfig_configured h.config newStreams,h.subscribers⟩
  | setup i =>
    refine ⟨h.config,fun j => ?_⟩
    by_cases hj : j = i
    · subst hj
      simpa [System.step] using setupSubscriptions_inLine h.config (h.subscribers j)
    · simpa [System.step,hj] using h.subscribers j

lemma System.Sound.run {pattern : Bytes} {streams : Streams} {s : System program} (h : s.Sound pattern streams)
    (events : List (Event program)) : (s.run events).Sound pattern (currentStreams streams events) := by
  induction events generalizing s streams with
  | nil => exact h
  | cons event events ih => exact ih (h.step event)

lemma start_sound (pattern : Bytes) (streams : Streams) : (System.start program pattern streams).Sound pattern streams :=
  ⟨setupStreamConfig_configured pattern streams,fun _ => inLine_new pattern⟩

/-- Whatever streams have been retrieved in the meantime and whatever the subscribers have done: when a subscriber
has set up its subscriptions, its filters are the heartbeat and every current stream that matches the
pattern, each once, or the empty filter if there is no pattern. At any time, the filters of every
subscriber are those for the list it has seen last. -/
theorem run_setup_filters (program : Program) (pattern : Bytes) (streams : Streams) (events : List (Event program)) :
    (∀ i,(((System.start program pattern streams).run (events ++ [.setup i])).subscribers i).filters =
      wanted pattern (matching pattern (currentStreams streams events))) ∧
    ∀ i,InLine pattern (((System.start program pattern streams).run events).subscribers i) := by
  have hsound : ((System.start program pattern streams).run events).Sound pattern (currentStreams streams events) :=
    (start_sound pattern streams).run events
  refine ⟨fun i => ?_,hsound.subscribers⟩
  have hfilters := setupSubscriptions_filters hsound.config (hsound.subscribers i)
  rw [System.run,List.foldl_append]
  change (Function.update ((System.start program pattern streams).run events).subscribers i _ i).filters = _
  rw [Function.update_self]
  refine hfilters.trans ?_
  rw [hsound.config.subscriptions,wanted,wanted]
  split_ifs <;> rfl

end Logjam.Subscriptions
