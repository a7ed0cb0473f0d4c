import Logjam.Importer.Tracker

/-! What the tracker forgets. Every ring is cleaned from its front, up to the first entry that is young
enough. Uuids and failures enter their rings with the current time, so the clock keeps them in order. A
uuid that is found takes the time it was added at into the successes, at whatever time that happens. -/
namespace Logjam.Importer.Tracker
open Logjam.Library

/-- Time does not go backwards. -/
def ClockAdvances (state : TrackerState) : Event → Prop
  | .setTime now => state.currentTimeMs.1 ≤ now.1
  | _ => True

instance (state : TrackerState) : (event : Event) → Decidable (ClockAdvances state event)
  | .setTime now => inferInstanceAs (Decidable (state.currentTimeMs.1 ≤ now.1))
  | .add _ => .isTrue trivial
  | .delete _ _ => .isTrue trivial
  | .tick => .isTrue trivial
  | .clean => .isTrue trivial

def NoneExpired (state : TrackerState) : Prop :=
  (∀ seen ∈ state.uuids.values,¬seen.1 < state.ageThresholdMs) ∧
    (∀ failure ∈ state.failures.values,¬failure.createdTimeMs < state.ageThresholdMs) ∧
    ∀ seen ∈ state.successes.values,¬seen.1 < state.ageThresholdMs

structure Ordered (state : TrackerState) : Prop where
  uuids : KeyedQueue.Chronological (fun seen : Timestamp => seen.1.toNat) state.currentTimeMs.1.toNat state.uuids
  failures : KeyedQueue.Chronological (fun failure : Failure => failure.createdTimeMs.toNat)
    state.currentTimeMs.1.toNat state.failures

lemma clean_uuids (state : TrackerState) : (serverCleanExpiredItems state).uuids =
    (state.uuids.shiftWhile fun item => decide (item.1 < state.ageThresholdMs)).2 := rfl

lemma clean_failures (state : TrackerState) : (serverCleanExpiredItems state).failures =
    (state.failures.shiftWhile fun failure => decide (failure.createdTimeMs < state.ageThresholdMs)).2 := rfl

lemma clean_successes (state : TrackerState) : (serverCleanExpiredItems state).successes =
    (state.successes.shiftWhile fun item => decide (item.1 < state.ageThresholdMs)).2 := rfl

lemma ordered_new (now : Timestamp) : Ordered (trackerStateNew now) :=
  ⟨KeyedQueue.chronological_empty,KeyedQueue.chronological_empty⟩

lemma Ordered.clean {state : TrackerState} (h : Ordered state) : Ordered (serverCleanExpiredItems state) := by
  constructor
  · rw [clean_uuids]
    exact h.uuids.shiftWhile _
  · rw [clean_failures]
    exact h.failures.shiftWhile _

lemma Ordered.addUuid {state : TrackerState} (h : Ordered state) (uuid : Bytes) :
    Ordered (addUuid state uuid) :=
  ⟨h.uuids.pushBack uuid rfl,h.failures⟩

lemma Ordered.add {state : TrackerState} (h : Ordered state) (uuid : Bytes) :
    Ordered (serverAddUuid state uuid).1 := by
  obtain ⟨-,msg,heq⟩ | ⟨-,-,heq⟩ | ⟨-,-,-,heq⟩ := serverAddUuid_cases state uuid
  · rw [heq]
    have hlate : Ordered { state with failures := state.failures.erase uuid } :=
      ⟨h.uuids,h.failures.erase uuid⟩
    exact hlate.addUuid uuid
  · rwa [heq]
  · rw [heq]
    exact h.addUuid uuid

lemma Ordered.delete {state next : TrackerState} {uuid : Bytes} {msg : List Bytes} {out : List Observation}
    (h : Ordered state) (heq : deleteUuid state uuid msg = .ok (next,out)) : Ordered next := by
  obtain ⟨-,-,seen,rfl⟩ | ⟨-,-,-,rfl⟩ | ⟨-,-,-,-,parked,rfl⟩ := deleteUuid_cases heq
  · exact ⟨h.uuids.erase uuid,h.failures⟩
  · exact ⟨h.uuids,h.failures⟩
  · exact ⟨h.uuids,h.failures.pushBack uuid rfl⟩

lemma Ordered.setTime {state : TrackerState} (h : Ordered state) {now : Timestamp}
    (hclock : state.currentTimeMs.1 ≤ now.1) : Ordered (trackerStateSetTimeParams state now) := by
  have hle : state.currentTimeMs.1.toNat ≤ now.1.toNat := UInt64.le_iff_toNat_le.mp hclock
  exact ⟨h.uuids.mono hle,h.failures.mono hle⟩

lemma Ordered.step {state next : TrackerState} {event : Event} {out : List Observation} (h : Ordered state)
    (hclock : ClockAdvances state event) (heq : Tracker.step state event = .ok (next,out)) : Ordered next := by
  cases event with
  | add uuid =>
    obtain ⟨rfl,-⟩ := Prod.mk.inj (Except.ok.inj heq)
    exact h.add uuid
  | delete uuid msg => exact h.clean.delete heq
  | tick =>
    obtain ⟨rfl,-⟩ := Prod.mk.inj (Except.ok.inj heq)
    exact ⟨h.clean.uuids,h.clean.failures⟩
  | setTime now =>
    obtain ⟨rfl,-⟩ := Prod.mk.inj (Except.ok.inj heq)
    exact h.setTime hclock
  | clean =>
    obtain ⟨rfl,-⟩ := Prod.mk.inj (Except.ok.inj heq)
    exact h.clean

theorem ordered_of_run {now : Timestamp} {events : List Event} {state : TrackerState} {trace : List Observation}
    (run : Run Tracker.step ClockAdvances (trackerStateNew now) events state trace) : Ordered state :=
  run.invariant (P := fun _ state _ => Ordered state) (ordered_new now)
    fun _ _ _ _ _ _ h hclock heq => h.step hclock heq

lemma Ordered.uuids_complete {state : TrackerState} (h : Ordered state) :
    ∀ seen ∈ (serverCleanExpiredItems state).uuids.values,¬seen.1 < state.ageThresholdMs := by
  intro seen hseen
  rw [clean_uuids] at hseen
  have hyoung := h.uuids.shiftWhile_complete (t := state.ageThresholdMs.toNat)
    (fun seen => by rw [decide_eq_true_eq,UInt64.lt_iff_toNat_lt]) seen hseen
  exact of_decide_eq_false hyoung

lemma Ordered.failures_complete {state : TrackerState} (h : Ordered state) :
    ∀ failure ∈ (serverCleanExpiredItems state).failures.values,¬failure.createdTimeMs < state.ageThresholdMs := by
  intro failure hfailure
  rw [clean_failures] at hfailure
  have hyoung := h.failures.shiftWhile_complete (t := state.ageThresholdMs.toNat)
    (fun failure => by rw [decide_eq_true_eq,UInt64.lt_iff_toNat_lt]) failure hfailure
  exact of_decide_eq_false hyoung

lemma successes_complete_iff (state : TrackerState) :
    (∀ seen ∈ (serverCleanExpiredItems state).successes.values,¬seen.1 < state.ageThresholdMs) ↔
      state.successes.values.Pairwise fun seen later =>
        later.1 < state.ageThresholdMs → seen.1 < state.ageThresholdMs := by
  have hiff := KeyedQueue.shiftWhile_complete_iff (q := state.successes)
    (p := fun item : Timestamp => decide (item.1 < state.ageThresholdMs))
  rw [clean_successes]
  simpa only [decide_eq_false_iff_not,decide_eq_true_eq] using hiff

/-- Cleaning forgets everything that has expired, unless a success that has expired stands behind one
that has not. -/
theorem serverCleanExpiredItems_complete_iff (now : Timestamp) {events : List Event} {state : TrackerState}
    {trace : List Observation}
    (run : Run Tracker.step ClockAdvances (trackerStateNew now) events state trace) :
    NoneExpired (serverCleanExpiredItems state) ↔ state.successes.values.Pairwise fun seen later =>
      later.1 < state.ageThresholdMs → seen.1 < state.ageThresholdMs := by
  have h := ordered_of_run run
  constructor
  · rintro ⟨-,-,hsuccesses⟩
    exact (successes_complete_iff state).mp hsuccesses
  · intro hfirst
    exact ⟨h.uuids_complete,h.failures_complete,(successes_complete_iff state).mpr hfirst⟩

/-- Requests that are found in the order in which they were added. -/
theorem serverCleanExpiredItems_complete_sample : ∃ state trace,
    Run Tracker.step ClockAdvances (trackerStateNew ⟨1000000,by decide⟩)
      [.add (lit "a"),.setTime ⟨1100000,by decide⟩,.add (lit "b"),.delete (lit "a") [],.delete (lit "b") [],
        .setTime ⟨1350000,by decide⟩] state trace ∧
    NoneExpired (serverCleanExpiredItems state) := by
  have run : Run Tracker.step ClockAdvances (trackerStateNew ⟨1000000,by decide⟩)
      [.add (lit "a"),.setTime ⟨1100000,by decide⟩,.add (lit "b"),.delete (lit "a") [],.delete (lit "b") [],
        .setTime ⟨1350000,by decide⟩] _ _ :=
    ((((((Run.start).step trivial rfl).step (by decide) rfl).step trivial rfl).step trivial rfl).step
      trivial rfl).step (by decide) rfl
  refine ⟨_,_,run,(serverCleanExpiredItems_complete_iff _ run).mpr ?_⟩
  decide

/-- The later of two requests is found first, and keeps the other one in the ring. -/
theorem serverCleanExpiredItems_incomplete : ∃ state trace,
    Run Tracker.step ClockAdvances (trackerStateNew ⟨1000000,by decide⟩)
      [.add (lit "a"),.setTime ⟨1100000,by decide⟩,.add (lit "b"),.delete (lit "b") [],.delete (lit "a") [],
        .setTime ⟨1350000,by decide⟩] state trace ∧
    ¬NoneExpired (serverCleanExpiredItems state) := by
  have run : Run Tracker.step ClockAdvances (trackerStateNew ⟨1000000,by decide⟩)
      [.add (lit "a"),.setTime ⟨1100000,by decide⟩,.add (lit "b"),.delete (lit "b") [],.delete (lit "a") [],
        .setTime ⟨1350000,by decide⟩] _ _ :=
    ((((((Run.start).step trivial rfl).step (by decide) rfl).step trivial rfl).step trivial rfl).step
      trivial rfl).step (by decide) rfl
  refine ⟨_,_,run,?_⟩
  rintro ⟨-,-,hsuccesses⟩
  exact hsuccesses ⟨1000000,by decide⟩ (by decide) (by decide)

end Logjam.Importer.Tracker
