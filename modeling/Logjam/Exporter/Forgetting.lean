import Logjam.Library.Execution
import Logjam.Exporter.ActionRegistry

/-! What becomes of the series of an action without further messages, and of those with some: on a fair
schedule the former go away, and the latter stay if the threshold is right. -/
namespace Logjam.Exporter.ActionRegistry
open Library
open Logjam.Importer (ZHash)

variable {c : ObservingCollector} {s s' : State} {event : Event} {out : List Observation}

section Forgetting
variable {a : Bytes}

/-- Nothing of an action is on its way to the registry. -/
def Handled (a : Bytes) (s : State) : Prop := ¬s.observer.Records a ∧ a ∉ s.actionRegistry

/-- No metric of the action is taken. -/
def Event.Without (a : Bytes) (event : Event) : Prop := ∀ m, event = .take m → m.action ≠ a

lemma not_records_step (hstep : Step c s event s' out) (hno : event.Without a) (h : ¬s.observer.Records a) :
    ¬s'.observer.Records a := by
  cases hstep with
  | @take m hobserver =>
    obtain hidle | ⟨plan,hplan,-⟩ := record_cases c m
    · rw [hidle]
      exact id
    · rw [hplan]
      exact hno m rfl
  | observe hobserver =>
    rw [hobserver] at h
    exact h
  | send => exact id
  | _ => exact h

/-- The number of receipts after which an action is not queued any more. -/
def receiptsLeft (a : Bytes) : List Bytes → ℕ
  | [] => 0
  | action::queue => if a ∈ action::queue then receiptsLeft a queue+1 else 0

lemma receiptsLeft_append {action : Bytes} (h : action ≠ a) (queue : List Bytes) :
    receiptsLeft a (queue++[action]) = receiptsLeft a queue := by
  induction queue with
  | nil => simp [receiptsLeft,h.symm]
  | cons b queue ih => simp [receiptsLeft,ih,h.symm]

lemma receiptsLeft_cons {action : Bytes} {queue : List Bytes} (h : a ∈ action::queue) :
    receiptsLeft a queue < receiptsLeft a (action::queue) := by
  rw [receiptsLeft,if_pos h]
  exact Nat.lt_succ_self _

/-- What a step does to the channel, when the observer is not recording the action. -/
lemma queue_step (hstep : Step c s event s' out) (h : ¬s.observer.Records a) :
    s'.actionRegistry = s.actionRegistry ∨ (∃ action ≠ a, s'.actionRegistry = s.actionRegistry++[action]) ∨
      ∃ action, s.actionRegistry = action::s'.actionRegistry := by
  cases hstep with
  | @send action hobserver hspace =>
    rw [hobserver] at h
    exact .inr (.inl ⟨action,h,rfl⟩)
  | receive hregistry hqueue => exact .inr (.inr ⟨_,hqueue⟩)
  | _ => exact .inl rfl

lemma Handled.step (h : Handled a s) (hno : event.Without a) (hstep : Step c s event s' out) : Handled a s' := by
  refine ⟨not_records_step hstep hno h.1,?_⟩
  have hqueue := h.2
  obtain heq | ⟨action,hne,heq⟩ | ⟨action,heq⟩ := queue_step hstep h.1
  · rwa [heq]
  · rw [heq]
    simpa [hne.symm] using hqueue
  · rw [heq] at hqueue
    exact fun hmem => hqueue (List.mem_cons_of_mem _ hmem)

/-- An entry the loop has still to visit and is going to remove. -/
def Registry.Due (c : ObservingCollector) (a : Bytes) (v : ℤ) : Registry → Prop
  | .waiting => False
  | .cleaning now todo => (a,v) ∈ todo ∧ v < threshold c now
  | .gathering now todo _ _ _ => (a,v) ∈ todo ∧ v < threshold c now
  | .deleting now todo _ _ => (a,v) ∈ todo ∧ v < threshold c now

/-- An action that is not known any more, or will not be after the loop. -/
def Leaving (c : ObservingCollector) (a : Bytes) (s : State) : Prop :=
  ∀ v, s.knownActions[a]? = some v → s.registry.Due c a v

lemma Leaving.unknown_of_waiting (h : Leaving c a s) (hregistry : s.registry = .waiting) :
    s.knownActions[a]? = none := by
  refine Option.eq_none_iff_forall_ne_some.mpr ?_
  intro v hv
  have hdue := h v hv
  rw [hregistry] at hdue
  exact hdue

/-- What the registry knows about an action that is not queued only goes away. -/
lemma known_step (hstep : Step c s event s' out) (h : a ∉ s.actionRegistry) {v : ℤ}
    (hv : s'.knownActions[a]? = some v) : s.knownActions[a]? = some v := by
  cases hstep with
  | @receive now action queue hregistry hqueue =>
    dsimp only at hv
    rw [Std.ExtTreeMap.getElem?_insert,if_neg] at hv
    · exact hv
    · intro heq
      rw [hqueue,Std.LawfulEqCmp.eq_of_compare heq] at h
      exact h List.mem_cons_self
  | remove =>
    dsimp only at hv
    rw [Std.ExtTreeMap.getElem?_erase] at hv
    split_ifs at hv
    exact hv
  | _ => exact hv

lemma Leaving.step (h : Leaving c a s) (hqueue : a ∉ s.actionRegistry) (hstep : Step c s event s' out) :
    Leaving c a s' := by
  intro v hv
  have hdue := h v (known_step hstep hqueue hv)
  cases hstep with
  | take => exact hdue
  | observe => exact hdue
  | send => exact hdue
  | receive hregistry | tick hregistry =>
    rw [hregistry] at hdue
    exact hdue.elim
  | finish hregistry =>
    rw [hregistry] at hdue
    exact absurd hdue.1 List.not_mem_nil
  | remove hregistry =>
    rw [hregistry] at hdue
    obtain ⟨hmem,hlate⟩ := hdue
    refine ⟨(List.mem_cons.mp hmem).resolve_left ?_,hlate⟩
    -- the entry being removed is not known any more
    intro heq
    obtain ⟨rfl,rfl⟩ := Prod.mk.inj heq
    dsimp only at hv
    rw [Std.ExtTreeMap.getElem?_erase,if_pos Std.ReflCmp.compare_self] at hv
    cases hv
  | skip hregistry hfresh =>
    rw [hregistry] at hdue
    obtain ⟨hmem,hlate⟩ := hdue
    refine ⟨(List.mem_cons.mp hmem).resolve_left ?_,hlate⟩
    intro heq
    obtain ⟨rfl,rfl⟩ := Prod.mk.inj heq
    exact hfresh hlate
  | collect hregistry | gathered hregistry | removed hregistry | delete hregistry =>
    rw [hregistry] at hdue
    exact hdue

/-- An action the collector has nothing to do with. -/
structure Gone (a : Bytes) (s : State) : Prop where
  handled : Handled a s
  unknown : s.knownActions[a]? = none
  kept : ¬s.registry.Removes a

lemma Gone.no_series (h : Gone a s) {x : Series} (hx : Accounted s x) : x.action ≠ a := by
  rintro rfl
  obtain hknown | hqueued | hremoves | hrecords := hx
  · rw [← Std.ExtTreeMap.isSome_getElem?_iff_mem] at hknown
    rw [h.unknown] at hknown
    cases hknown
  · exact h.handled.2 hqueued
  · exact h.kept hremoves
  · exact h.handled.1 hrecords

lemma Gone.step {trace : List Observation} (h : Gone a s) (hsound : Sound c s trace) (hno : event.Without a)
    (hstep : Step c s event s' out) : Gone a s' where
  handled := h.handled.step hno hstep
  unknown := by
    refine Option.eq_none_iff_forall_ne_some.mpr ?_
    intro v hv
    have hold := known_step hstep h.handled.2 hv
    rw [h.unknown] at hold
    cases hold
  kept := by
    have hkept := h.kept
    cases hstep with
    | @remove now action v todo hregistry =>
      rintro rfl
      have hknown := hsound.todo_known action v (by rw [hregistry]; exact List.mem_cons_self)
      rw [h.unknown] at hknown
      cases hknown
    | collect hregistry | gathered hregistry | delete hregistry =>
      rw [hregistry] at hkept
      exact hkept
    | take => exact hkept
    | observe => exact hkept
    | send => exact hkept
    | receive => exact hkept
    | _ => exact id

/-- How far the loop is from its end. -/
def Registry.rank : Registry → ℕ ×ₗ ℕ ×ₗ ℕ
  | .waiting => toLex (0,toLex (0,0))
  | .cleaning _ todo => toLex (todo.length+1,toLex (0,0))
  | .gathering _ todo _ left _ => toLex (todo.length+1,toLex (2,left.length))
  | .deleting _ todo _ rest => toLex (todo.length+1,toLex (1,rest.length))

def Event.OfObserver : Event → Prop
  | .observe => True
  | .send => True
  | _ => False

def Event.OfLoop : Event → Prop
  | .collect _ => True
  | .next => True
  | _ => False

/-- Only its own steps move the loop, and each of them brings it closer to its end. -/
lemma rank_step (hstep : Step c s event s' out) (h : s.registry ≠ .waiting) :
    s'.registry.rank < s.registry.rank ∨ ¬event.OfLoop ∧ s'.registry = s.registry := by
  cases hstep with
  | receive hregistry => exact absurd hregistry h
  | tick hregistry => exact absurd hregistry h
  | finish hregistry | remove hregistry | skip hregistry | gathered hregistry | removed hregistry
  | delete hregistry =>
    rw [hregistry]
    exact .inl (by simp [Registry.rank,Prod.Lex.toLex_lt_toLex])
  | collect hregistry hleft =>
    have hlength := List.length_pos_of_mem hleft
    rw [hregistry]
    exact .inl (by simpa [Registry.rank,Prod.Lex.toLex_lt_toLex,List.length_erase_of_mem hleft] using hlength)
  | _ => exact .inr ⟨id,rfl⟩

/-- The steps the observer has still to take for its metric. -/
def Observer.rank : Observer → ℕ
  | .idle => 0
  | .recording plan _ => plan.length+1

lemma observer_step (hstep : Step c s event s' out) (h : s.observer ≠ .idle) :
    s'.observer.rank < s.observer.rank ∨ ¬event.OfObserver ∧ s'.observer = s.observer := by
  cases hstep with
  | take hobserver => exact absurd hobserver h
  | observe hobserver =>
    rw [hobserver]
    exact .inl (by simp [Observer.rank])
  | send hobserver =>
    rw [hobserver]
    exact .inl (by simp [Observer.rank])
  | _ => exact .inr ⟨id,rfl⟩

/-- Without the observer the channel only gets emptier. -/
lemma length_queue_step (hstep : Step c s event s' out) (h : ¬event.OfObserver) :
    s'.actionRegistry.length ≤ s.actionRegistry.length := by
  cases hstep with
  | send => exact absurd trivial h
  | receive hregistry hqueue => simp [hqueue]
  | _ => exact le_rfl

/-- A receipt takes the head of the channel. -/
lemma receive_step {now : ℤ} (hstep : Step c s (.receive now) s' out) :
    ∃ action, s.actionRegistry = action::s'.actionRegistry := by
  cases hstep with
  | receive hregistry hqueue => exact ⟨_,hqueue⟩

/-- The scheduler lets both goroutines go on, the select takes each of its cases again and again, and
the ticker never ends. -/
structure Fair {start : ℤ} (e : Execution (step c) Allowed (initial start)) : Prop where
  /-- The observer goes on unless it has nothing to do or waits for a place in the channel. -/
  observer : ∀ n, ∃ m, n ≤ m ∧ ((e.state m).observer = .idle ∨
    capacity ≤ (e.state m).actionRegistry.length ∨ (e.event m).OfObserver)
  loop : ∀ n, ∃ m, n ≤ m ∧ ((e.state m).registry = .waiting ∨ (e.event m).OfLoop)
  receive : ∀ n, ∃ m, n ≤ m ∧ ((e.state m).actionRegistry = [] ∨ ∃ now, e.event m = .receive now)
  tick : ∀ n time, ∃ m now order, n ≤ m ∧ time < now ∧ e.event m = .tick now order

/-- An action that receives no more messages has no series after some time. -/
def Forgotten (c : ObservingCollector) (start : ℤ) : Prop :=
  ∀ e : Execution (step c) Allowed (initial start), Fair e →
    ∀ a first, (∀ n, first ≤ n → (e.event n).Without a) →
      ∃ last, ∀ n, last ≤ n → ∀ x ∈ (e.state n).series, x.action ≠ a

section Execution
variable {start : ℤ} {e : Execution (step c) Allowed (initial start)}

lemma step_at (e : Execution (step c) Allowed (initial start)) (n : ℕ) :
    Step c (e.state n) (e.event n) (e.state (n+1)) (e.out n) := step_cases (e.eq n)

/-- A full channel does not stop the observer for ever. -/
lemma Fair.observer_moves (hfair : Fair e) (n : ℕ) :
    ∃ m, n ≤ m ∧ ((e.state m).observer = .idle ∨ (e.event m).OfObserver) := by
  by_contra hnone
  push Not at hnone
  have hshrinks : ∀ m, n ≤ m → (e.state (m+1)).actionRegistry.length ≤ (e.state m).actionRegistry.length :=
    fun m hm => length_queue_step (step_at e m) (hnone m hm).2
  obtain ⟨first,hfirst,hspace⟩ : ∃ m, n ≤ m ∧ (e.state m).actionRegistry.length < capacity := by
    refine exists_of_rank (fun m => (e.state m).actionRegistry.length) _ (fun m hm _ => .inr (hshrinks m hm)) ?_
    intro k hk
    obtain ⟨m,hm,hempty | ⟨now,hevent⟩⟩ := hfair.receive k
    · refine ⟨m,hm,.inl ?_⟩
      rw [hempty]
      decide
    · obtain ⟨action,hqueue⟩ := receive_step (hevent ▸ step_at e m)
      exact ⟨m,hm,.inr (by simp [hqueue])⟩
  obtain ⟨m,hm,hidle | hfull | hevent⟩ := hfair.observer first
  · exact (hnone m (hfirst.trans hm)).1 hidle
  · have hspace' : (e.state m).actionRegistry.length < capacity :=
      stable (P := fun k => (e.state k).actionRegistry.length < capacity) hspace
        (fun k hk hlt => (hshrinks k (hfirst.trans hk)).trans_lt hlt) hm
    exact absurd hfull (not_le.mpr hspace')
  · exact (hnone m (hfirst.trans hm)).2 hevent

variable {a : Bytes} {first : ℕ}

/-- The observer sends the action in the end. -/
lemma Fair.recorded (hfair : Fair e) (first : ℕ) : ∃ n, first ≤ n ∧ ¬(e.state n).observer.Records a := by
  refine exists_of_rank (fun n => (e.state n).observer.rank) _ ?_ ?_
  · intro n _ hrecords
    have hbusy : (e.state n).observer ≠ .idle := by
      intro hidle
      rw [hidle] at hrecords
      exact hrecords id
    obtain hlt | ⟨-,heq⟩ := observer_step (step_at e n) hbusy
    · exact .inr hlt.le
    · exact .inr (le_of_eq (congrArg Observer.rank heq))
  · intro n _
    obtain ⟨m,hm,hmoves⟩ := hfair.observer_moves n
    refine ⟨m,hm,?_⟩
    by_cases hidle : (e.state m).observer = .idle
    · rw [hidle]
      exact .inl id
    · have hevent := hmoves.resolve_left hidle
      obtain hlt | ⟨hnot,-⟩ := observer_step (step_at e m) hidle
      · exact .inr hlt
      · exact absurd hevent hnot

/-- The registry receives it. -/
lemma Fair.received (hfair : Fair e) (hrecords : ∀ n, first ≤ n → ¬(e.state n).observer.Records a) :
    ∃ n, first ≤ n ∧ a ∉ (e.state n).actionRegistry := by
  refine exists_of_rank (fun n => receiptsLeft a (e.state n).actionRegistry) _ ?_ ?_
  · intro n hn hmem
    rw [not_not] at hmem
    obtain heq | ⟨action,hne,heq⟩ | ⟨action,heq⟩ := queue_step (step_at e n) (hrecords n hn)
    · exact .inr (le_of_eq (congrArg (receiptsLeft a) heq))
    · refine .inr (le_of_eq ?_)
      rw [heq,receiptsLeft_append hne]
    · rw [heq] at hmem
      refine .inr (le_of_lt ?_)
      rw [heq]
      exact receiptsLeft_cons hmem
  · intro n hn
    obtain ⟨m,hm,hempty | ⟨now,hevent⟩⟩ := hfair.receive n
    · refine ⟨m,hm,.inl ?_⟩
      rw [hempty]
      exact List.not_mem_nil
    · refine ⟨m,hm,?_⟩
      obtain ⟨action,hqueue⟩ := receive_step (hevent ▸ step_at e m)
      by_cases hmem : a ∈ (e.state m).actionRegistry
      · refine .inr ?_
        rw [hqueue] at hmem ⊢
        exact receiptsLeft_cons hmem
      · exact .inl hmem

/-- A loop ends. -/
lemma Fair.waits (hfair : Fair e) (first : ℕ) : ∃ n, first ≤ n ∧ (e.state n).registry = .waiting := by
  refine exists_of_rank (fun n => (e.state n).registry.rank) _ ?_ ?_
  · intro n _ hbusy
    obtain hlt | ⟨-,heq⟩ := rank_step (step_at e n) hbusy
    · exact .inr hlt.le
    · exact .inr (le_of_eq (congrArg Registry.rank heq))
  · intro n _
    obtain ⟨m,hm,hloop⟩ := hfair.loop n
    refine ⟨m,hm,?_⟩
    by_cases hwaiting : (e.state m).registry = .waiting
    · exact .inl hwaiting
    · have hevent := hloop.resolve_left hwaiting
      obtain hlt | ⟨hnot,-⟩ := rank_step (step_at e m) hwaiting
      · exact .inr hlt
      · exact absurd hevent hnot

/-- From some time on nothing of the action is on its way. -/
lemma Fair.handled (hfair : Fair e) (hno : ∀ n, first ≤ n → (e.event n).Without a) :
    ∃ last, first ≤ last ∧ ∀ n, last ≤ n → Handled a (e.state n) := by
  obtain ⟨sent,hsent,hrecords⟩ := hfair.recorded (a := a) first
  have hnever : ∀ n, sent ≤ n → ¬(e.state n).observer.Records a := by
    intro n hn
    refine stable (P := fun n => ¬(e.state n).observer.Records a) hrecords ?_ hn
    intro k hk h
    exact not_records_step (step_at e k) (hno k (hsent.trans hk)) h
  obtain ⟨last,hlast,hqueue⟩ := hfair.received hnever
  refine ⟨last,hsent.trans hlast,?_⟩
  intro n hn
  refine stable (P := fun n => Handled a (e.state n)) ⟨hnever last hlast,hqueue⟩ ?_ hn
  intro k hk h
  exact h.step (hno k ((hsent.trans hlast).trans hk)) (step_at e k)

/-- A tick that comes late enough finds every entry of the action stale. -/
lemma Fair.leaves (hfair : Fair e) (hhandled : ∀ n, first ≤ n → Handled a (e.state n)) :
    ∃ last, first ≤ last ∧ ∀ n, last ≤ n → Leaving c a (e.state n) := by
  have hknown : ∀ n, first ≤ n → ∀ v, (e.state n).knownActions[a]? = some v →
      (e.state first).knownActions[a]? = some v := by
    intro n hn
    refine stable (P := fun n => ∀ v, (e.state n).knownActions[a]? = some v →
      (e.state first).knownActions[a]? = some v) (fun _ => id) ?_ hn
    intro k hk h v hv
    exact h v (known_step (step_at e k) (hhandled k hk).2 hv)
  have hlate : ∃ time, ∀ now, time < now → ∀ v, (e.state first).knownActions[a]? = some v → v < threshold c now := by
    refine ⟨((e.state first).knownActions[a]?).getD 0-threshold c 0,?_⟩
    intro now hnow v hv
    rw [hv,Option.getD_some] at hnow
    rw [threshold_eq_add]
    omega
  obtain ⟨time,hlate⟩ := hlate
  obtain ⟨m,now,order,hm,hnow,hevent⟩ := hfair.tick first time
  refine ⟨m+1,by omega,?_⟩
  intro n hn
  refine stable (P := fun n => Leaving c a (e.state n)) ?_ ?_ hn
  · -- the loop starts with all the entries of the map
    intro v hv
    have hok := e.ok m
    have hstep := step_at e m
    have hfirst := hknown m hm v (known_step hstep (hhandled m hm).2 hv)
    have hmem := known_step hstep (hhandled m hm).2 hv
    rw [hevent] at hok hstep
    generalize e.state (m+1) = next,e.out m = out at hstep
    cases hstep with
    | tick hregistry =>
      refine ⟨hok.2.mem_iff.mpr ?_,hlate now hnow v hfirst⟩
      exact Std.ExtTreeMap.mem_toList_iff_getElem?_eq_some.mpr hmem
  · intro k hk h
    exact h.step (hhandled k (by omega)).2 (step_at e k)

theorem forgotten (c : ObservingCollector) (start : ℤ) : Forgotten c start := by
  intro e hfair a first hno
  obtain ⟨handled,hfirst,hhandled⟩ := hfair.handled hno
  obtain ⟨leaving,hleaving,hleaves⟩ := hfair.leaves hhandled
  obtain ⟨last,hlast,hwaiting⟩ := hfair.waits leaving
  have hgone : Gone a (e.state last) :=
    { handled := hhandled last (hleaving.trans hlast)
      unknown := (hleaves last hlast).unknown_of_waiting hwaiting
      kept := by rw [hwaiting]; exact id }
  refine ⟨last,?_⟩
  intro n hn x hx
  have hgone' : Gone a (e.state n) := by
    refine stable (P := fun n => Gone a (e.state n)) hgone ?_ hn
    intro k hk h
    exact h.step (sound_of_run (e.run k)) (hno k (by omega)) (step_at e k)
  exact hgone'.no_series (neverOrphaned c start _ _ _ (e.run n) x hx)

end Execution

end Forgetting

section Wrapped

/-- A page of an application, as a metric without an instance. -/
def samplePage : Metric :=
  ⟨.pageMetric,.ofList [(lit "app",lit "shop"),(lit "env",lit "production"),(lit "action",lit "Home#index")] _⟩

def sampleSeries : Series :=
  ⟨.pageHistogramVec,[lit "shop",lit "production",lit "Home#index",[]],rfl⟩

/-- The page is recorded and received; then the ticker fires. -/
def sampleEvents (v now : ℤ) : List Event :=
  [.take samplePage,.observe,.send,.receive v,.tick now [(lit "Home#index",v)],.next]++Vec.all.map .collect++
    [.next,.next]

lemma record_samplePage (c : ObservingCollector) : record c samplePage =
    .recording [(.pageHistogramVec,samplePage.props.insert (lit "instance") [])] (lit "Home#index") := by
  have haction : (samplePage.props.insert (lit "instance") []).getD (lit "action") [] = lit "Home#index" := by
    decide +kernel
  show recordFrontendMetrics .pageHistogramVec samplePage = _
  rw [recordFrontendMetrics,haction]

lemma withLabels_samplePage :
    Vec.pageHistogramVec.withLabels (samplePage.props.insert (lit "instance") []) = some sampleSeries := by
  decide +kernel

/-- Gather may collect the vectors in any order. -/
lemma run_collect (s : State) (now : ℤ) (todo : List (Bytes × ℤ)) (action : Bytes) (left : List Vec)
    (gathered : List Sample) :
    Run (step c) Allowed { s with registry := .gathering now todo action left gathered } (left.map .collect)
      { s with registry := .gathering now todo action []
                (gathered++left.flatMap fun vec => (s.series.filter (·.vec = vec)).map Series.sample) } [] := by
  induction left generalizing gathered with
  | nil =>
    rw [List.flatMap_nil,List.append_nil]
    exact .start
  | cons vec left ih =>
    have hcollect : step c { s with registry := .gathering now todo action (vec::left) gathered } (.collect vec) =
        .ok ({ s with registry := .gathering now todo action left
                        (gathered++(s.series.filter (·.vec = vec)).map Series.sample) },[]) := by
      simp only [step,if_pos List.mem_cons_self,List.erase_cons_head]
    rw [List.flatMap_cons,← List.append_assoc]
    exact (Run.start.step trivial hcollect).append (ih _)

/-- The series of the page stands alone, and the registry has just forgotten its action. -/
def sampleRemoval (v now : ℤ) (registry : Registry) : State :=
  ⟨[sampleSeries],[],((∅ : ZHash ℤ).insert (lit "Home#index") v).erase (lit "Home#index"),.idle,registry,now⟩

lemma run_samplePage {start v now : ℤ} (hv : start ≤ v) (hnow : v ≤ now) (hstale : v < threshold c now) :
    Run (step c) Allowed (initial start)
      [.take samplePage,.observe,.send,.receive v,.tick now [(lit "Home#index",v)],.next]
      (sampleRemoval v now (.gathering now [] (lit "Home#index") Vec.all [])) [.received (lit "Home#index") v] := by
  have htake := (Run.start : Run (step c) Allowed (initial start) [] _ []).step
    (show Allowed _ (.take samplePage) from trivial) rfl
  have hobserve := htake.step (show Allowed _ .observe from trivial) (by
    simp only [step,record_samplePage,withLabels_samplePage]
    rfl)
  have hsend := hobserve.step (show Allowed _ .send from trivial) rfl
  have hreceive := hsend.step (show Allowed _ (.receive v) from hv) rfl
  have htick := hreceive.step (show Allowed _ (.tick now [(lit "Home#index",v)]) from ⟨hnow,.rfl⟩) rfl
  exact htick.step (show Allowed _ .next from trivial) (by
    simp only [step,if_pos hstale]
    rfl)

/-- If the threshold is later than the receipt, the loop deletes the series of the page. -/
lemma run_sampleEvents {start v now : ℤ} (hv : start ≤ v) (hnow : v ≤ now) (hstale : v < threshold c now) :
    ∃ s, Run (step c) Allowed (initial start) (sampleEvents v now) s
      [.received (lit "Home#index") v,.deleted sampleSeries.sample now] := by
  have hsamples : (Vec.all.flatMap fun vec => ([sampleSeries].filter (·.vec = vec)).map Series.sample) =
      [sampleSeries.sample] := by decide +kernel
  have hfilter : ([sampleSeries.sample].filter fun sample => hasLabel sample.pairs (lit "action") (lit "Home#index")) =
      [sampleSeries.sample] := by decide +kernel
  have hcollect := run_collect (c := c) (sampleRemoval v now .waiting) now [] (lit "Home#index") Vec.all []
  have hgathered := hcollect.step (show Allowed _ .next from trivial) rfl
  dsimp only [sampleRemoval] at hgathered
  rw [hsamples,List.nil_append,hfilter] at hgathered
  have hdelete := hgathered.step (show Allowed _ .next from trivial) rfl
  exact ⟨_,(run_samplePage hv hnow hstale).append hdelete⟩

/-- With a threshold that is too late, a tick deletes a series too early. -/
lemma le_of_onlyStale {start : ℤ} (h : OnlyStale c start) : c.cleanAfter.toNat*minute ≤ 2^63 := by
  by_contra hwraps
  have hlate := lt_threshold_of_lt (c := c) (not_le.mp hwraps)
  -- the page is received no longer before the tick than it has to be for the threshold
  obtain ⟨v,now,hv,hnow,hstale,hfresh⟩ : ∃ v now, start ≤ v ∧ v ≤ now ∧ v < threshold c now ∧
      ¬v+c.cleanAfter.toNat*minute < now := by
    refine ⟨start,start+max 0 (1-threshold c 0),le_rfl,?_⟩
    have hzero := hlate 0
    rw [threshold_eq_add c (start+_)]
    omega
  obtain ⟨s,hrun⟩ := run_sampleEvents hv hnow hstale
  obtain ⟨w,hw,hlt⟩ := h _ _ _ hrun [.received (lit "Home#index") v] sampleSeries.sample now
    List.prefix_rfl (lit "Home#index") (by decide +kernel)
  obtain rfl : v = w := by simpa [lastReceipt] using hw
  exact hfresh hlt

lemma onlyStale_of_le (h : c.cleanAfter.toNat*minute ≤ 2^63) (start : ℤ) : OnlyStale c start := by
  intro events s trace hrun before sample now hdeleted a ha
  obtain ⟨v,hv,hlt⟩ := deleted_before_threshold hrun hdeleted ha
  rw [threshold_of_le h] at hlt
  exact ⟨v,hv,by omega⟩

end Wrapped

/-- Series are never orphaned, and what receives no more messages is forgotten. A tick only deletes what
is stale as long as the duration fits an int64; else the threshold wraps. -/
theorem series_never_orphaned_iff (c : ObservingCollector) (start : ℤ) :
    NeverOrphaned c start ∧ Forgotten c start ∧ OnlyStale c start ↔ c.cleanAfter.toNat*minute ≤ 2^63 := by
  constructor
  · rintro ⟨-,-,hstale⟩
    exact le_of_onlyStale hstale
  · intro h
    exact ⟨neverOrphaned c start,forgotten c start,onlyStale_of_le h start⟩

section Samples

def sampleCollector (cleanAfter : UInt64) : ObservingCollector where
  app := lit "shop"
  env := lit "production"
  ignoredRequestURI := []
  defaultDC := lit "unknown"
  name := []
  apiRequests := []
  datacenters := []
  stopped := 0
  verbose := false
  cleanAfter := cleanAfter

/-- Nothing but ticks: the state after every half of them. -/
def tickingState (n : ℕ) : State :=
  if n%2 = 0 then initial (n/2-1 : ℕ)
  else { initial (n/2 : ℕ) with registry := .cleaning (n/2 : ℕ) [] }

def tickingEvent (n : ℕ) : Event := if n%2 = 0 then .tick (n/2 : ℕ) [] else .next

lemma ticking_even (k : ℕ) : tickingState (2*k) = initial (k-1 : ℕ) ∧ tickingEvent (2*k) = .tick k [] := by
  have hmod : 2*k%2 = 0 := by omega
  have hdiv : 2*k/2 = k := by omega
  simp only [tickingState,tickingEvent,hmod,hdiv,if_pos,and_self]

lemma ticking_odd (k : ℕ) : tickingState (2*k+1) = { initial k with registry := .cleaning k [] } ∧
    tickingEvent (2*k+1) = .next := by
  have hmod : ¬(2*k+1)%2 = 0 := by omega
  have hdiv : (2*k+1)/2 = k := by omega
  simp only [tickingState,tickingEvent,if_neg hmod,hdiv,and_self]

lemma allowed_ticking (n : ℕ) : Allowed (tickingState n) (tickingEvent n) := by
  obtain ⟨k,rfl | rfl⟩ := n.even_or_odd'
  · rw [(ticking_even k).1,(ticking_even k).2]
    refine ⟨?_,.rfl⟩
    simp only [initial]
    omega
  · rw [(ticking_odd k).2]
    trivial

lemma step_ticking (c : ObservingCollector) (n : ℕ) :
    step c (tickingState n) (tickingEvent n) = .ok (tickingState (n+1),[]) := by
  obtain ⟨k,rfl | rfl⟩ := n.even_or_odd'
  · rw [(ticking_even k).1,(ticking_even k).2,(ticking_odd k).1]
    rfl
  · rw [(ticking_odd k).1,(ticking_odd k).2,show 2*k+1+1 = 2*(k+1) by ring,(ticking_even (k+1)).1]
    rfl

def ticking (c : ObservingCollector) : Execution (step c) Allowed (initial 0) where
  state := tickingState
  event := tickingEvent
  out _ := []
  state_zero := (ticking_even 0).1
  ok := allowed_ticking
  eq := step_ticking c

lemma fair_ticking (c : ObservingCollector) : Fair (ticking c) where
  observer n := by
    refine ⟨2*n,by omega,.inl ?_⟩
    change (tickingState (2*n)).observer = _
    rw [(ticking_even n).1]
    rfl
  loop n := by
    refine ⟨2*n,by omega,.inl ?_⟩
    change (tickingState (2*n)).registry = _
    rw [(ticking_even n).1]
    rfl
  receive n := by
    refine ⟨2*n,by omega,.inl ?_⟩
    change (tickingState (2*n)).actionRegistry = _
    rw [(ticking_even n).1]
    rfl
  tick n time := by
    refine ⟨2*(n+(time.toNat+1)),(n+(time.toNat+1) : ℕ),[],by omega,by omega,?_⟩
    exact (ticking_even _).2

theorem sampleCollector_never_orphaned : (∃ e : Execution (step (sampleCollector 5)) Allowed (initial 0), Fair e) ∧
    NeverOrphaned (sampleCollector 5) 0 ∧ Forgotten (sampleCollector 5) 0 ∧ OnlyStale (sampleCollector 5) 0 :=
  ⟨⟨_,fair_ticking _⟩,(series_never_orphaned_iff (sampleCollector 5) 0).mpr (by decide)⟩

/-- After two hundred million minutes is too late for an int64: the series goes after one minute. -/
theorem sampleCollector_deletes_fresh :
    (∃ s, Run (step (sampleCollector 200000000)) Allowed (initial 0) (sampleEvents 0 minute) s
      [.received (lit "Home#index") 0,.deleted sampleSeries.sample minute]) ∧
    ¬OnlyStale (sampleCollector 200000000) 0 := by
  refine ⟨run_sampleEvents le_rfl (by decide) (by decide +kernel),?_⟩
  intro h
  exact absurd (le_of_onlyStale h) (by decide)

end Samples


end Logjam.Exporter.ActionRegistry
