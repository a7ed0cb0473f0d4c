import Logjam.Library.Run
import Logjam.Exporter.Series

/-! The two goroutines of a collector. The observer records a metric in its vectors and then sends the
action to the registry channel. The action registry notes when it has last received an action; on a
tick it removes the actions that have not been seen for a while, by taking a snapshot of all vectors
and deleting the series of the action one by one. The observer goes on recording meanwhile. -/
namespace Logjam.Exporter.ActionRegistry
open Library
open Logjam.Importer (ZHash)

/-- The action registry: waiting in its select, or at some place of the loop a tick starts. The loop
goes over the entries in an order of its own; Gather collects the vectors one after the other. -/
inductive Registry
  | waiting
  | cleaning (now : ℤ) (todo : List (Bytes × ℤ))
  | gathering (now : ℤ) (todo : List (Bytes × ℤ)) (action : Bytes) (left : List Vec) (gathered : List Sample)
  | deleting (now : ℤ) (todo : List (Bytes × ℤ)) (action : Bytes) (rest : List Sample)

/-- What both goroutines share, and where each of them is. Times are in nanoseconds. -/
structure State where
  series : List Series
  actionRegistry : List Bytes
  knownActions : ZHash ℤ
  observer : Observer
  registry : Registry
  clock : ℤ

def initial (start : ℤ) : State := ⟨[],[],∅,.idle,.waiting,start⟩

/-- The capacity of the registry channel. -/
def capacity : ℕ := 10000

/-- The number of nanoseconds in a minute. -/
def minute : ℕ := 60000000000

/-- Entries before this time are stale. A Duration is an int64. -/
def threshold (c : ObservingCollector) (now : ℤ) : ℤ :=
  now+toInt64 (toInt64 (-1*toInt64 c.cleanAfter.toNat)*minute)

inductive Event
  /-- The observer takes a metric from its channel. -/
  | take (m : Metric)
  | observe
  /-- The observer sends the action; it waits while the channel is full. -/
  | send
  | receive (now : ℤ)
  /-- The ticker fires. The entries are visited in this order. -/
  | tick (now : ℤ) (order : List (Bytes × ℤ))
  /-- Gather collects a vector. -/
  | collect (vec : Vec)
  /-- Any other step of the loop a tick has started. -/
  | next

/-- What the registry does to the outside. -/
inductive Observation
  | received (action : Bytes) (now : ℤ)
  /-- A series is deleted by the tick of this time. -/
  | deleted (sample : Sample) (now : ℤ)

/-- The clock does not go back, and a loop visits every entry of the map once. -/
def Allowed (s : State) : Event → Prop
  | .receive now => s.clock ≤ now
  | .tick now order => s.clock ≤ now ∧ order.Perm s.knownActions.toList
  | _ => True

/-- A step of one of the goroutines; an error if that goroutine is elsewhere, is blocked or panics. -/
def step (c : ObservingCollector) (s : State) : Event → Except Unit (State × List Observation)
  | .take m =>
    match s.observer with
    | .idle => .ok ({ s with observer := record c m },[])
    | _ => .error ()
  | .observe =>
    match s.observer with
    | .recording ((vec,labels)::plan) action =>
      match vec.withLabels labels with
      | some x =>
        .ok ({ s with observer := .recording plan action,
                      series := if x ∈ s.series then s.series else x::s.series },[])
      | none => .error ()
    | _ => .error ()
  | .send =>
    match s.observer with
    | .recording [] action =>
      if s.actionRegistry.length < capacity then
        .ok ({ s with observer := .idle, actionRegistry := s.actionRegistry++[action] },[])
      else .error ()
    | _ => .error ()
  | .receive now =>
    match s.registry,s.actionRegistry with
    | .waiting,action::queue =>
      .ok ({ s with actionRegistry := queue, knownActions := s.knownActions.insert action now, clock := now },
        [.received action now])
    | _,_ => .error ()
  | .tick now order =>
    match s.registry with
    | .waiting => .ok ({ s with registry := .cleaning now order, clock := now },[])
    | _ => .error ()
  | .collect vec =>
    match s.registry with
    | .gathering now todo action left gathered =>
      if vec ∈ left then
        .ok ({ s with registry := .gathering now todo action (left.erase vec)
                        (gathered++(s.series.filter (·.vec = vec)).map Series.sample) },[])
      else .error ()
    | _ => .error ()
  | .next =>
    match s.registry with
    | .cleaning _ [] => .ok ({ s with registry := .waiting },[])
    | .cleaning now ((action,v)::todo) =>
      if v < threshold c now then
        .ok ({ s with knownActions := s.knownActions.erase action,
                      registry := .gathering now todo action Vec.all [] },[])
      else .ok ({ s with registry := .cleaning now todo },[])
    | .gathering now todo action [] gathered =>
      .ok ({ s with registry := .deleting now todo action
                      (gathered.filter fun sample => hasLabel sample.pairs (lit "action") action) },[])
    | .deleting now todo _ [] => .ok ({ s with registry := .cleaning now todo },[])
    | .deleting now todo action (sample::rest) =>
      .ok ({ s with series := deleteSample s.series sample, registry := .deleting now todo action rest },
        [.deleted sample now])
    | _ => .error ()

/-- Everything a step can do. -/
inductive Step (c : ObservingCollector) (s : State) : Event → State → List Observation → Prop
  | take {m} (hobserver : s.observer = .idle) : Step c s (.take m) { s with observer := record c m } []
  | observe {vec labels plan action x} (hobserver : s.observer = .recording ((vec,labels)::plan) action)
      (hx : vec.withLabels labels = some x) :
      Step c s .observe { s with observer := .recording plan action,
                                 series := if x ∈ s.series then s.series else x::s.series } []
  | send {action} (hobserver : s.observer = .recording [] action)
      (hspace : s.actionRegistry.length < capacity) :
      Step c s .send { s with observer := .idle, actionRegistry := s.actionRegistry++[action] } []
  | receive {now action queue} (hregistry : s.registry = .waiting) (hqueue : s.actionRegistry = action::queue) :
      Step c s (.receive now) { s with actionRegistry := queue,
                                       knownActions := s.knownActions.insert action now, clock := now }
        [.received action now]
  | tick {now order} (hregistry : s.registry = .waiting) :
      Step c s (.tick now order) { s with registry := .cleaning now order, clock := now } []
  | collect {now todo action left gathered vec} (hregistry : s.registry = .gathering now todo action left gathered)
      (hleft : vec ∈ left) :
      Step c s (.collect vec) { s with registry := .gathering now todo action (left.erase vec)
                                        (gathered++(s.series.filter (·.vec = vec)).map Series.sample) } []
  | finish {now} (hregistry : s.registry = .cleaning now []) : Step c s .next { s with registry := .waiting } []
  | remove {now action v todo} (hregistry : s.registry = .cleaning now ((action,v)::todo))
      (hstale : v < threshold c now) :
      Step c s .next { s with knownActions := s.knownActions.erase action,
                              registry := .gathering now todo action Vec.all [] } []
  | skip {now action v todo} (hregistry : s.registry = .cleaning now ((action,v)::todo))
      (hfresh : ¬v < threshold c now) : Step c s .next { s with registry := .cleaning now todo } []
  | gathered {now todo action gathered} (hregistry : s.registry = .gathering now todo action [] gathered) :
      Step c s .next { s with registry := .deleting now todo action
                                (gathered.filter fun sample => hasLabel sample.pairs (lit "action") action) } []
  | removed {now todo action} (hregistry : s.registry = .deleting now todo action []) :
      Step c s .next { s with registry := .cleaning now todo } []
  | delete {now todo action sample rest} (hregistry : s.registry = .deleting now todo action (sample::rest)) :
      Step c s .next { s with series := deleteSample s.series sample,
                              registry := .deleting now todo action rest } [.deleted sample now]

variable {c : ObservingCollector} {s s' : State} {event : Event} {out : List Observation}

lemma step_cases (h : step c s event = .ok (s',out)) : Step c s event s' out := by
  cases event with
  | take m =>
    simp only [step] at h
    split at h <;> cases h
    exact .take ‹_›
  | observe =>
    simp only [step] at h
    split at h
    · split at h <;> cases h
      exact .observe ‹_› ‹_›
    · cases h
  | send =>
    simp only [step] at h
    split at h
    · split_ifs at h with hspace
      cases h
      exact .send ‹_› hspace
    · cases h
  | receive now =>
    simp only [step] at h
    split at h <;> cases h
    exact .receive ‹_› ‹_›
  | tick now order =>
    simp only [step] at h
    split at h <;> cases h
    exact .tick ‹_›
  | collect vec =>
    simp only [step] at h
    split at h
    · split_ifs at h with hleft
      cases h
      exact .collect ‹_› hleft
    · cases h
  | next =>
    simp only [step] at h
    split at h
    · cases h
      exact .finish ‹_›
    · split_ifs at h with hstale <;> cases h
      · exact .remove ‹_› hstale
      · exact .skip ‹_› hstale
    · cases h
      exact .gathered ‹_›
    · cases h
      exact .removed ‹_›
    · cases h
      exact .delete ‹_›
    · cases h

/-- The action the observer is recording. -/
def Observer.Records (a : Bytes) : Observer → Prop
  | .idle => False
  | .recording _ action => action = a

/-- What the observer has still to observe belongs to the action it is going to send. -/
def Observer.Consistent : Observer → Prop
  | .idle => True
  | .recording plan action => ∀ entry ∈ plan, entry.2.getD (lit "action") [] = action

/-- The action the registry is removing. -/
def Registry.Removes (a : Bytes) : Registry → Prop
  | .gathering _ _ action _ _ => action = a
  | .deleting _ _ action _ => action = a
  | _ => False

/-- A series of the action being removed that the registry is going to delete. -/
def Registry.Holds (x : Series) : Registry → Prop
  | .gathering _ _ action left gathered => x.action = action ∧ (x.vec ∈ left ∨ x.sample ∈ gathered)
  | .deleting _ _ action rest => x.action = action ∧ x.sample ∈ rest
  | _ => False

/-- The entries the loop has not visited yet. -/
def Registry.todo : Registry → List (Bytes × ℤ)
  | .waiting => []
  | .cleaning _ todo => todo
  | .gathering _ todo _ _ _ => todo
  | .deleting _ todo _ _ => todo

/-- A series whose action is known, queued, just being removed or just being recorded. -/
def Accounted (s : State) (x : Series) : Prop :=
  x.action ∈ s.knownActions ∨ x.action ∈ s.actionRegistry ∨ s.registry.Removes x.action ∨
    s.observer.Records x.action

/-- The same, where a removal only accounts for the series it is going to delete. -/
def Covered (s : State) (x : Series) : Prop :=
  x.action ∈ s.knownActions ∨ x.action ∈ s.actionRegistry ∨ s.registry.Holds x ∨
    s.observer.Records x.action

lemma Covered.accounted {x : Series} (h : Covered s x) : Accounted s x := by
  refine h.imp_right (Or.imp_right (Or.imp_left ?_))
  intro hholds
  cases hregistry : s.registry <;> rw [hregistry] at hholds
  · exact hholds
  · exact hholds
  · exact hholds.1.symm
  · exact hholds.1.symm

/-- Where the registry goes, it has to keep the series it was going to delete. -/
lemma Covered.advance {x : Series} (h : Covered s x) {registry : Registry}
    (hholds : s.registry.Holds x → registry.Holds x) : Covered { s with registry } x :=
  h.imp_right (Or.imp_right (Or.imp_left hholds))

lemma Covered.advance_of_not {x : Series} (h : Covered s x) (hnot : ¬s.registry.Holds x) (registry : Registry) :
    Covered { s with registry } x := h.advance fun hholds => absurd hholds hnot

/-- What is collected from a vector replaces the vector. -/
lemma Registry.holds_collect {x : Series} {series : List Series} {now : ℤ} {todo : List (Bytes × ℤ)} {action : Bytes}
    {left : List Vec} {gathered : List Sample} (vec : Vec) (hx : x ∈ series)
    (h : (Registry.gathering now todo action left gathered).Holds x) :
    (Registry.gathering now todo action (left.erase vec)
      (gathered++(series.filter (·.vec = vec)).map Series.sample)).Holds x := by
  obtain ⟨haction,hleft | hgathered⟩ := h
  · refine ⟨haction,?_⟩
    by_cases hvec : x.vec = vec
    · refine .inr (List.mem_append_right _ (List.mem_map_of_mem ?_))
      exact List.mem_filter.mpr ⟨hx,by simpa using hvec⟩
    · exact .inl ((List.mem_erase_of_ne hvec).mpr hleft)
  · exact ⟨haction,.inr (List.mem_append_left _ hgathered)⟩

/-- An idle observer has no series to account for. -/
lemma Covered.take {x : Series} (h : Covered s x) (hobserver : s.observer = .idle) (observer : Observer) :
    Covered { s with observer } x := by
  rw [Covered,hobserver] at h
  exact h.imp_right (Or.imp_right (Or.imp_right False.elim))

/-- While its plan is carried out, the action of a metric is still to be sent. -/
lemma Covered.observe {x : Series} {plan plan' : List (Vec × ZHash Bytes)} {action : Bytes} (h : Covered s x)
    (hobserver : s.observer = .recording plan action) (series : List Series) :
    Covered { s with observer := .recording plan' action, series } x := by
  rw [Covered,hobserver] at h
  exact h

/-- An action that has been sent is in the channel. -/
lemma Covered.send {x : Series} {action : Bytes} (h : Covered s x) (hobserver : s.observer = .recording [] action) :
    Covered { s with observer := .idle, actionRegistry := s.actionRegistry++[action] } x := by
  rw [Covered,hobserver] at h
  obtain hknown | hqueued | hholds | hrecords := h
  · exact .inl hknown
  · exact .inr (.inl (List.mem_append_left _ hqueued))
  · exact .inr (.inr (.inl hholds))
  · exact .inr (.inl (List.mem_append_right _ (List.mem_singleton.mpr hrecords.symm)))

/-- An action is known before it has left the channel. -/
lemma Covered.receive {x : Series} {action : Bytes} {queue : List Bytes} (h : Covered s x)
    (hqueue : s.actionRegistry = action::queue) (now : ℤ) :
    Covered { s with actionRegistry := queue, knownActions := s.knownActions.insert action now, clock := now } x := by
  rw [Covered,hqueue,List.mem_cons] at h
  obtain hknown | (heq | hqueued) | hrest := h
  · exact .inl (Std.ExtTreeMap.mem_insert.mpr (.inr hknown))
  · exact .inl (Std.ExtTreeMap.mem_insert.mpr (.inl (heq ▸ Std.ReflCmp.compare_self)))
  · exact .inr (.inl hqueued)
  · exact .inr (.inr hrest)

/-- All series of an action that is forgotten are going to be deleted. -/
lemma Covered.remove {x : Series} (h : Covered s x) (hnot : ¬s.registry.Holds x) (now : ℤ) (todo : List (Bytes × ℤ)) (action : Bytes) :
    Covered { s with knownActions := s.knownActions.erase action, registry := .gathering now todo action Vec.all [] } x := by
  obtain hknown | hqueued | hholds | hrecords := h
  · by_cases haction : x.action = action
    · exact .inr (.inr (.inl ⟨haction,.inl x.vec.mem_all⟩))
    · refine .inl (Std.ExtTreeMap.mem_erase.mpr ⟨?_,hknown⟩)
      exact fun heq => haction (Std.LawfulEqCmp.eq_of_compare heq).symm
  · exact .inr (.inl hqueued)
  · exact absurd hholds hnot
  · exact .inr (.inr (.inr hrecords))

/-- The time of the last receipt of an action. -/
def lastReceipt (a : Bytes) (trace : List Observation) : Option ℤ :=
  trace.foldl (fun last observation => match observation with
    | .received action now => if action = a then some now else last
    | .deleted .. => last) none

lemma lastReceipt_received (a action : Bytes) (now : ℤ) (trace : List Observation) :
    lastReceipt a (trace++[.received action now]) = if action = a then some now else lastReceipt a trace := by
  rw [lastReceipt,List.foldl_append]
  rfl

lemma lastReceipt_deleted (a : Bytes) (sample : Sample) (now : ℤ) (trace : List Observation) :
    lastReceipt a (trace++[.deleted sample now]) = lastReceipt a trace := by
  rw [lastReceipt,List.foldl_append]
  rfl

/-- The registry removes an action because it has not received it for a while, and what it deletes
are series of this action. -/
def Registry.Justified (c : ObservingCollector) (trace : List Observation) : Registry → Prop
  | .gathering now _ action _ gathered =>
    (∃ v, lastReceipt action trace = some v ∧ v < threshold c now) ∧
      ∀ sample ∈ gathered, ∃ x : Series, x.sample = sample
  | .deleting now _ action rest =>
    (∃ v, lastReceipt action trace = some v ∧ v < threshold c now) ∧
      ∀ sample ∈ rest, ∃ x : Series, x.sample = sample ∧ x.action = action
  | _ => True

/-- The invariant of the two goroutines. -/
structure Sound (c : ObservingCollector) (s : State) (trace : List Observation) : Prop where
  covered : ∀ x ∈ s.series, Covered s x
  consistent : s.observer.Consistent
  receipts : ∀ a v, s.knownActions[a]? = some v → lastReceipt a trace = some v
  todo_known : ∀ a v, (a,v) ∈ s.registry.todo → s.knownActions[a]? = some v
  todo_nodup : (s.registry.todo.map Prod.fst).Nodup
  justified : s.registry.Justified c trace

lemma sound_initial (c : ObservingCollector) (start : ℤ) : Sound c (initial start) [] where
  covered := by simp [initial]
  consistent := trivial
  receipts := by simp [initial]
  todo_known := by simp [initial,Registry.todo]
  todo_nodup := List.nodup_nil
  justified := trivial

/-- What a step leaves accounted for. -/
lemma Sound.covered_step {trace : List Observation} (h : Sound c s trace) (hstep : Step c s event s' out) :
    ∀ x ∈ s'.series, Covered s' x := by
  have hcovered := h.covered
  cases hstep with
  | take hobserver =>
    intro x hx
    exact (hcovered x hx).take hobserver _
  | @observe vec labels plan action y hobserver hy =>
    intro x hx
    have hconsistent := h.consistent
    rw [hobserver] at hconsistent
    have hy' : y.action = action := (Vec.action_of_withLabels hy).trans (hconsistent _ List.mem_cons_self)
    -- the series may be new, but its action is still to be sent
    have hmem : x = y ∨ x ∈ s.series := by
      dsimp only at hx
      split_ifs at hx
      · exact .inr hx
      · exact List.mem_cons.mp hx
    obtain rfl | hmem := hmem
    · exact .inr (.inr (.inr hy'.symm))
    · exact (hcovered x hmem).observe hobserver _
  | send hobserver =>
    intro x hx
    exact (hcovered x hx).send hobserver
  | receive hregistry hqueue =>
    intro x hx
    exact (hcovered x hx).receive hqueue _
  | tick hregistry =>
    intro x hx
    exact (hcovered x hx).advance_of_not (hregistry ▸ not_false) _
  | @collect now todo action left gathered vec hregistry hleft =>
    intro x hx
    refine (hcovered x hx).advance ?_
    rw [hregistry]
    exact Registry.holds_collect vec hx
  | finish hregistry =>
    intro x hx
    exact (hcovered x hx).advance_of_not (hregistry ▸ not_false) _
  | @remove now action v todo hregistry hstale =>
    intro x hx
    exact (hcovered x hx).remove (hregistry ▸ not_false) now todo action
  | skip hregistry hfresh =>
    intro x hx
    exact (hcovered x hx).advance_of_not (hregistry ▸ not_false) _
  | gathered hregistry =>
    intro x hx
    refine (hcovered x hx).advance ?_
    rw [hregistry]
    rintro ⟨haction,hmem | hmem⟩
    · cases hmem
    · exact ⟨haction,List.mem_filter.mpr ⟨hmem,(x.hasLabel_action _).mpr haction⟩⟩
  | removed hregistry =>
    intro x hx
    refine (hcovered x hx).advance_of_not ?_ _
    rw [hregistry]
    exact fun hholds => List.not_mem_nil hholds.2
  | @delete now todo action sample rest hregistry =>
    have hjustified := h.justified
    rw [hregistry] at hjustified
    obtain ⟨y,rfl,-⟩ := hjustified.2 sample List.mem_cons_self
    intro x hx
    rw [y.deleteSample_sample] at hx
    obtain ⟨hx,hne⟩ := List.mem_filter.mp hx
    refine (hcovered x hx).advance ?_
    rw [hregistry]
    rintro ⟨haction,hmem⟩
    refine ⟨haction,(List.mem_cons.mp hmem).resolve_left ?_⟩
    intro heq
    exact of_decide_eq_true hne (Series.sample_injective heq)

lemma Sound.consistent_step {trace : List Observation} (h : Sound c s trace) (hstep : Step c s event s' out) :
    s'.observer.Consistent := by
  have hconsistent := h.consistent
  cases hstep with
  | @take m hobserver =>
    obtain hidle | ⟨plan,hplan,hentries⟩ := record_cases c m
    · rw [hidle]
      trivial
    · rw [hplan]
      exact hentries
  | observe hobserver hx =>
    rw [hobserver] at hconsistent
    exact fun entry hentry => hconsistent entry (List.mem_cons_of_mem _ hentry)
  | send => trivial
  | _ => exact hconsistent

/-- The registry notes every receipt; it only forgets. -/
lemma Sound.receipts_step {trace : List Observation} (h : Sound c s trace) (hstep : Step c s event s' out) :
    ∀ a v, s'.knownActions[a]? = some v → lastReceipt a (trace++out) = some v := by
  have hreceipts := h.receipts
  cases hstep with
  | @receive now action queue hregistry hqueue =>
    intro a v hv
    rw [lastReceipt_received]
    dsimp only at hv
    rw [Std.ExtTreeMap.getElem?_insert] at hv
    by_cases ha : action = a
    · rw [if_pos ha,← hv,if_pos (ha ▸ Std.ReflCmp.compare_self)]
    · rw [if_neg (mt Std.LawfulEqCmp.eq_of_compare ha)] at hv
      rw [if_neg ha]
      exact hreceipts a v hv
  | @remove now action _ todo hregistry hstale =>
    intro a v hv
    rw [List.append_nil]
    dsimp only at hv
    rw [Std.ExtTreeMap.getElem?_erase] at hv
    split_ifs at hv
    exact hreceipts a v hv
  | delete hregistry =>
    intro a v hv
    rw [lastReceipt_deleted]
    exact hreceipts a v hv
  | _ => simpa using hreceipts

/-- The entries a loop has still to visit stand in the map as they did when it started. -/
lemma Sound.todo_step {trace : List Observation} (h : Sound c s trace) (hok : Allowed s event)
    (hstep : Step c s event s' out) :
    (∀ a v, (a,v) ∈ s'.registry.todo → s'.knownActions[a]? = some v) ∧ (s'.registry.todo.map Prod.fst).Nodup := by
  have htodo := And.intro h.todo_known h.todo_nodup
  cases hstep with
  | take => exact htodo
  | observe => exact htodo
  | send => exact htodo
  | receive hregistry hqueue =>
    dsimp only
    rw [hregistry]
    exact ⟨fun a v hmem => absurd hmem List.not_mem_nil,List.nodup_nil⟩
  | tick hregistry =>
    obtain ⟨-,hperm⟩ := hok
    refine ⟨fun a v hmem => Std.ExtTreeMap.mem_toList_iff_getElem?_eq_some.mp (hperm.mem_iff.mp hmem),?_⟩
    refine (hperm.map Prod.fst).nodup_iff.mpr (List.pairwise_map.mpr ?_)
    refine Std.ExtTreeMap.distinct_keys_toList.imp ?_
    intro p q hne heq
    exact hne (heq ▸ Std.ReflCmp.compare_self)
  | finish => exact ⟨fun a v hmem => absurd hmem List.not_mem_nil,List.nodup_nil⟩
  | remove hregistry hstale =>
    rw [hregistry] at htodo
    obtain ⟨hknown,hnodup⟩ := htodo
    obtain ⟨hnot,hnodup⟩ := List.nodup_cons.mp hnodup
    refine ⟨?_,hnodup⟩
    intro a v hmem
    dsimp only
    rw [Std.ExtTreeMap.getElem?_erase,if_neg]
    · exact hknown a v (List.mem_cons_of_mem _ hmem)
    · intro heq
      rw [Std.LawfulEqCmp.eq_of_compare heq] at hnot
      exact hnot (List.mem_map.mpr ⟨(a,v),hmem,rfl⟩)
  | skip hregistry hfresh =>
    rw [hregistry] at htodo
    exact ⟨fun a v hmem => htodo.1 a v (List.mem_cons_of_mem _ hmem),htodo.2.of_cons⟩
  | collect hregistry | gathered hregistry | removed hregistry | delete hregistry =>
    rw [hregistry] at htodo
    exact htodo

lemma Sound.justified_step {trace : List Observation} (h : Sound c s trace) (hstep : Step c s event s' out) :
    s'.registry.Justified c (trace++out) := by
  have hjustified := h.justified
  cases hstep with
  | take => simpa using hjustified
  | observe => simpa using hjustified
  | send => simpa using hjustified
  | receive hregistry hqueue =>
    dsimp only
    rw [hregistry]
    trivial
  | tick => trivial
  | finish => trivial
  | skip => trivial
  | removed => trivial
  | @remove now action v todo hregistry hstale =>
    have hknown := h.todo_known action v (by rw [hregistry]; exact List.mem_cons_self)
    rw [List.append_nil]
    exact ⟨⟨v,h.receipts action v hknown,hstale⟩,fun sample hmem => absurd hmem List.not_mem_nil⟩
  | collect hregistry hleft =>
    rw [hregistry] at hjustified
    rw [List.append_nil]
    refine ⟨hjustified.1,?_⟩
    intro sample hmem
    obtain hmem | hmem := List.mem_append.mp hmem
    · exact hjustified.2 sample hmem
    · obtain ⟨x,-,rfl⟩ := List.mem_map.mp hmem
      exact ⟨x,rfl⟩
  | gathered hregistry =>
    rw [hregistry] at hjustified
    rw [List.append_nil]
    refine ⟨hjustified.1,?_⟩
    intro sample hmem
    obtain ⟨hmem,hlabel⟩ := List.mem_filter.mp hmem
    obtain ⟨x,rfl⟩ := hjustified.2 sample hmem
    exact ⟨x,rfl,(x.hasLabel_action _).mp hlabel⟩
  | delete hregistry =>
    rw [hregistry] at hjustified
    refine ⟨?_,fun sample hmem => hjustified.2 sample (List.mem_cons_of_mem _ hmem)⟩
    rw [lastReceipt_deleted]
    exact hjustified.1

lemma Sound.step {trace : List Observation} (h : Sound c s trace) (hok : Allowed s event)
    (hstep : Step c s event s' out) : Sound c s' (trace++out) where
  covered := h.covered_step hstep
  consistent := h.consistent_step hstep
  receipts := h.receipts_step hstep
  todo_known := (h.todo_step hok hstep).1
  todo_nodup := (h.todo_step hok hstep).2
  justified := h.justified_step hstep

lemma sound_of_run {start : ℤ} {events : List Event} {trace : List Observation}
    (hrun : Run (step c) Allowed (initial start) events s trace) : Sound c s trace := by
  refine hrun.invariant (P := fun _ s trace => Sound c s trace) (sound_initial c start) ?_
  intro _ s trace event s' out h hok heq
  exact h.step hok (step_cases heq)

/-- In every state each series belongs to an action the collector still has to do with. -/
def NeverOrphaned (c : ObservingCollector) (start : ℤ) : Prop :=
  ∀ events s trace, Run (step c) Allowed (initial start) events s trace → ∀ x ∈ s.series, Accounted s x

theorem neverOrphaned (c : ObservingCollector) (start : ℤ) : NeverOrphaned c start := by
  intro events s trace hrun x hx
  exact ((sound_of_run hrun).covered x hx).accounted

section Deletions

/-- A tick deletes only series of actions that were last received more than that many minutes before. -/
def OnlyStale (c : ObservingCollector) (start : ℤ) : Prop :=
  ∀ events s trace, Run (step c) Allowed (initial start) events s trace →
    ∀ before sample now, before++[.deleted sample now] <+: trace →
      ∀ a, hasLabel sample.pairs (lit "action") a = true →
        ∃ v, lastReceipt a before = some v ∧ v+c.cleanAfter.toNat*minute < now

/-- What a deletion shows: the threshold of its tick was later than the last receipt. -/
lemma deleted_before_threshold {start : ℤ} {events : List Event} {trace before : List Observation}
    {sample : Sample} {now : ℤ} (hrun : Run (step c) Allowed (initial start) events s trace)
    (hdeleted : before++[.deleted sample now] <+: trace) {a : Bytes}
    (ha : hasLabel sample.pairs (lit "action") a = true) :
    ∃ v, lastReceipt a before = some v ∧ v < threshold c now := by
  induction hrun with
  | start => simp at hdeleted
  | @step events s trace event s' out hrun hok heq ih =>
    -- only the last observation is new, if there is any
    have hstep := step_cases heq
    have hjustified := (sound_of_run hrun).justified
    cases hstep with
    | @delete tickTime todo action deleted rest hregistry =>
      obtain hnew | hold := List.prefix_concat_iff.mp hdeleted
      · obtain ⟨rfl,hlast⟩ := List.append_inj' hnew rfl
        obtain ⟨rfl,rfl⟩ : sample = deleted ∧ now = tickTime := by simpa using hlast
        rw [hregistry] at hjustified
        obtain ⟨x,rfl,rfl⟩ := hjustified.2 sample List.mem_cons_self
        rw [← (x.hasLabel_action a).mp ha]
        exact hjustified.1
      · exact ih hold
    | receive =>
      obtain hnew | hold := List.prefix_concat_iff.mp hdeleted
      · have hlast := (List.append_inj' hnew rfl).2
        simp at hlast
      · exact ih hold
    | _ => exact ih (by simpa using hdeleted)

lemma threshold_eq_add (c : ObservingCollector) (now : ℤ) : threshold c now = now+threshold c 0 := by
  simp only [threshold,zero_add]

lemma threshold_eq_bmod (c : ObservingCollector) (now : ℤ) :
    threshold c now = now+(-(c.cleanAfter.toNat*minute : ℤ)).bmod (2^64) := by
  rw [threshold,toInt64,toInt64,toInt64,Int.bmod_mul_bmod,neg_one_mul,neg_mul_comm,Int.bmod_mul_bmod,mul_neg]

/-- The duration is what it should be if it fits. -/
lemma threshold_of_le (h : c.cleanAfter.toNat*minute ≤ 2^63) (now : ℤ) :
    threshold c now = now-c.cleanAfter.toNat*minute := by
  rw [threshold_eq_bmod,Int.bmod_eq_of_le (by omega) (by omega)]
  rfl

/-- Otherwise it wraps, and the threshold is too late. -/
lemma lt_threshold_of_lt (h : 2^63 < c.cleanAfter.toNat*minute) (now : ℤ) :
    now-c.cleanAfter.toNat*minute < threshold c now := by
  have hbmod := Int.le_bmod (x := -(c.cleanAfter.toNat*minute : ℤ)) (show 0 < 2^64 by norm_num)
  rw [threshold_eq_bmod]
  omega

end Deletions

end Logjam.Exporter.ActionRegistry
