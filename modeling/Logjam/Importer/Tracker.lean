import Logjam.Library.KeyedQueue
import Logjam.Library.Run
import Logjam.Util.MetaInfo

/-! The tracker matches frontend messages with the backend requests they belong to. A frontend
message that comes first is parked, and sent back to the subscriber when its request is added. -/
namespace Logjam.Importer.Tracker
open Logjam.Library

def expireThresholdMs : UInt64 := 1000*60*5

/-- Times are stored in rings as pointers, and NULL is not an item: the clock is never zero. -/
abbrev Timestamp := {t : UInt64 // t ≠ 0}

structure Failure where
  createdTimeMs : UInt64
  msg : List Bytes

/-- The counters a tick resets. -/
structure Counters where
  added : ℕ
  deleted : ℕ
  expired : ℕ
  failed : ℕ
  duplicates : ℕ

structure TrackerState where
  currentTimeMs : Timestamp
  ageThresholdMs : UInt64
  counters : Counters
  uuids : KeyedQueue Bytes Timestamp
  failures : KeyedQueue Bytes Failure
  successes : KeyedQueue Bytes Timestamp

/-- The threshold is an unsigned difference and wraps around in the first minutes of the epoch. -/
def trackerStateSetTimeParams (state : TrackerState) (now : Timestamp) : TrackerState :=
  { state with currentTimeMs := now, ageThresholdMs := now.1-expireThresholdMs }

def trackerStateNew (now : Timestamp) : TrackerState :=
  trackerStateSetTimeParams ⟨now,0,⟨0,0,0,0,0⟩,∅,∅,∅⟩ now

/-- What the outside world sees of the tracker. -/
inductive Observation
  | answered (uuid : Bytes) (rc : Bool)
  | parked (uuid : Bytes)
  | resent (uuid : Bytes) (msg : List Bytes)
  | report (counters : Counters)

def cleanExpiredUuids (state : TrackerState) (ageThreshold : UInt64) : TrackerState :=
  let (expired,uuids) := state.uuids.shiftWhile fun item => decide (item.1 < ageThreshold)
  { state with
    counters := { state.counters with expired := state.counters.expired+expired }
    uuids := uuids }

def cleanExpiredFailures (state : TrackerState) (ageThreshold : UInt64) : TrackerState :=
  let (failed,failures) := state.failures.shiftWhile fun failure => decide (failure.createdTimeMs < ageThreshold)
  { state with
    counters := { state.counters with failed := state.counters.failed+failed }
    failures := failures }

def cleanExpiredSuccesses (state : TrackerState) (ageThreshold : UInt64) : TrackerState :=
  { state with successes := (state.successes.shiftWhile fun item => decide (item.1 < ageThreshold)).2 }

def serverCleanExpiredItems (state : TrackerState) : TrackerState :=
  let ageThreshold := state.ageThresholdMs
  cleanExpiredSuccesses (cleanExpiredFailures (cleanExpiredUuids state ageThreshold) ageThreshold) ageThreshold

def addUuid (state : TrackerState) (uuid : Bytes) : TrackerState :=
  { state with
    counters := { state.counters with added := state.counters.added+1 }
    uuids := state.uuids.pushBack uuid state.currentTimeMs }

def serverAddUuid (state : TrackerState) (uuid : Bytes) : TrackerState × List Observation :=
  match state.failures.lookup uuid with
  | some failure =>
    (addUuid { state with failures := state.failures.erase uuid } uuid,[.resent uuid failure.msg])
  | none =>
    if uuid ∈ state.successes ∨ uuid ∈ state.uuids then (state,[]) else (addUuid state uuid,[])

/-- A deletion once the expired items are gone. -/
def deleteUuid (state : TrackerState) (uuid : Bytes) (originalMsg : List Bytes) :
    Except Fault (TrackerState × List Observation) :=
  match state.uuids.lookup uuid with
  | some seen =>
    .ok ({ state with
      counters := { state.counters with deleted := state.counters.deleted+1 }
      uuids := state.uuids.erase uuid
      successes := state.successes.pushBack uuid seen },[.answered uuid true])
  | none =>
    if uuid ∈ state.successes ∨ uuid ∈ state.failures then
      .ok ({ state with
        counters := { state.counters with duplicates := state.counters.duplicates+1 } },
        [.answered uuid false])
    else do
      let msg ← zmsgClearDeviceAndSequenceNumber originalMsg
      return ({ state with failures := state.failures.pushBack uuid ⟨state.currentTimeMs.1,msg⟩ },
        [.parked uuid,.answered uuid false])

def serverDeleteUuid (state : TrackerState) (uuid : Bytes) (originalMsg : List Bytes) :
    Except Fault (TrackerState × List Observation) :=
  deleteUuid (serverCleanExpiredItems state) uuid originalMsg

def trackerTick (state : TrackerState) : TrackerState × List Observation :=
  let state := serverCleanExpiredItems state
  ({ state with counters := ⟨0,0,0,0,0⟩ },[.report state.counters])

inductive Event
  | add (uuid : Bytes)
  | delete (uuid : Bytes) (originalMsg : List Bytes)
  | tick
  | setTime (now : Timestamp)
  | clean

def step (state : TrackerState) : Event → Except Fault (TrackerState × List Observation)
  | .add uuid => .ok (serverAddUuid state uuid)
  | .delete uuid originalMsg => serverDeleteUuid state uuid originalMsg
  | .tick => .ok (trackerTick state)
  | .setTime now => .ok (trackerStateSetTimeParams state now,[])
  | .clean => .ok (serverCleanExpiredItems state,[])

lemma deleteUuid_cases {state next : TrackerState} {uuid : Bytes} {msg : List Bytes}
    {out : List Observation} (h : deleteUuid state uuid msg = .ok (next,out)) :
    (uuid ∈ state.uuids ∧ out = [.answered uuid true] ∧ ∃ seen, next = { state with
      counters := { state.counters with deleted := state.counters.deleted+1 }
      uuids := state.uuids.erase uuid
      successes := state.successes.pushBack uuid seen }) ∨
    (uuid ∉ state.uuids ∧ (uuid ∈ state.successes ∨ uuid ∈ state.failures) ∧
      out = [.answered uuid false] ∧ next = { state with
        counters := { state.counters with duplicates := state.counters.duplicates+1 } }) ∨
    (uuid ∉ state.uuids ∧ uuid ∉ state.successes ∧ uuid ∉ state.failures ∧
      out = [.parked uuid,.answered uuid false] ∧ ∃ parked, next = { state with
        failures := state.failures.pushBack uuid ⟨state.currentTimeMs.1,parked⟩ }) := by
  unfold deleteUuid at h
  cases hu : state.uuids.lookup uuid with
  | some seen =>
    rw [hu] at h
    obtain ⟨rfl,rfl⟩ := Prod.mk.inj (Except.ok.inj h)
    exact .inl ⟨AList.lookup_isSome.mp (by rw [hu]; rfl),rfl,seen,rfl⟩
  | none =>
    have hmem : uuid ∉ state.uuids := AList.lookup_eq_none.mp hu
    simp only [hu] at h
    by_cases hs : uuid ∈ state.successes ∨ uuid ∈ state.failures
    · rw [if_pos hs] at h
      obtain ⟨rfl,rfl⟩ := Prod.mk.inj (Except.ok.inj h)
      exact .inr (.inl ⟨hmem,hs,rfl,rfl⟩)
    · rw [if_neg hs] at h
      cases hm : zmsgClearDeviceAndSequenceNumber msg with
      | error e => rw [hm] at h; cases h
      | ok m =>
        rw [hm] at h
        obtain ⟨rfl,rfl⟩ := Prod.mk.inj (Except.ok.inj h)
        exact .inr (.inr ⟨hmem,fun hc => hs (.inl hc),fun hc => hs (.inr hc),rfl,_,rfl⟩)

lemma serverAddUuid_cases (state : TrackerState) (uuid : Bytes) :
    (uuid ∈ state.failures ∧ ∃ msg, serverAddUuid state uuid =
      (addUuid { state with failures := state.failures.erase uuid } uuid,[.resent uuid msg])) ∨
    (uuid ∉ state.failures ∧ (uuid ∈ state.successes ∨ uuid ∈ state.uuids) ∧
      serverAddUuid state uuid = (state,[])) ∨
    (uuid ∉ state.failures ∧ uuid ∉ state.successes ∧ uuid ∉ state.uuids ∧
      serverAddUuid state uuid = (addUuid state uuid,[])) := by
  unfold serverAddUuid
  cases hf : state.failures.lookup uuid with
  | some failure => exact .inl ⟨AList.lookup_isSome.mp (by rw [hf]; rfl),failure.msg,rfl⟩
  | none =>
    have hmem : uuid ∉ state.failures := AList.lookup_eq_none.mp hf
    by_cases hs : uuid ∈ state.successes ∨ uuid ∈ state.uuids
    · exact .inr (.inl ⟨hmem,hs,if_pos hs⟩)
    · exact .inr (.inr ⟨hmem,fun hc => hs (.inl hc),fun hc => hs (.inr hc),if_neg hs⟩)

/-! The books of a whole run: what the ticks have reported, plus what the counters hold now. -/

def Observation.reported (f : Counters → ℕ) : Observation → ℕ
  | .report counters => f counters
  | _ => 0

def Observation.isParked : Observation → Bool
  | .parked _ => true
  | _ => false

def Observation.isResent : Observation → Bool
  | .resent _ _ => true
  | _ => false

def total (f : Counters → ℕ) (state : TrackerState) (trace : List Observation) : ℕ :=
  (trace.map (Observation.reported f)).sum+f state.counters

def parkedCount (trace : List Observation) : ℕ := trace.countP Observation.isParked
def resentCount (trace : List Observation) : ℕ := trace.countP Observation.isResent

structure Disjoint (state : TrackerState) : Prop where
  uuids_failures : ∀ k ∈ state.uuids, k ∉ state.failures
  uuids_successes : ∀ k ∈ state.uuids, k ∉ state.successes
  failures_successes : ∀ k ∈ state.failures, k ∉ state.successes

structure Balanced (state : TrackerState) (trace : List Observation) : Prop where
  disjoint : Disjoint state
  added : total Counters.added state trace =
    total Counters.deleted state trace+total Counters.expired state trace+state.uuids.size
  parked : parkedCount trace =
    resentCount trace+total Counters.failed state trace+state.failures.size

lemma mem_uuids_of_clean {state : TrackerState} {k : Bytes}
    (h : k ∈ (serverCleanExpiredItems state).uuids) : k ∈ state.uuids :=
  KeyedQueue.mem_of_mem_shiftWhile (p := fun item : Timestamp => decide (item.1 < state.ageThresholdMs)) h

lemma mem_failures_of_clean {state : TrackerState} {k : Bytes}
    (h : k ∈ (serverCleanExpiredItems state).failures) : k ∈ state.failures :=
  KeyedQueue.mem_of_mem_shiftWhile (p := fun f : Failure => decide (f.createdTimeMs < state.ageThresholdMs)) h

lemma mem_successes_of_clean {state : TrackerState} {k : Bytes}
    (h : k ∈ (serverCleanExpiredItems state).successes) : k ∈ state.successes :=
  KeyedQueue.mem_of_mem_shiftWhile (p := fun item : Timestamp => decide (item.1 < state.ageThresholdMs)) h

lemma Disjoint.clean {state : TrackerState} (h : Disjoint state) :
    Disjoint (serverCleanExpiredItems state) where
  uuids_failures k hu hf := h.uuids_failures k (mem_uuids_of_clean hu) (mem_failures_of_clean hf)
  uuids_successes k hu hs := h.uuids_successes k (mem_uuids_of_clean hu) (mem_successes_of_clean hs)
  failures_successes k hf hs :=
    h.failures_successes k (mem_failures_of_clean hf) (mem_successes_of_clean hs)

/-- Expired items move from the rings to the counters. -/
lemma Balanced.clean {state : TrackerState} {trace : List Observation} (h : Balanced state trace) :
    Balanced (serverCleanExpiredItems state) trace := by
  have hu := KeyedQueue.size_shiftWhile (fun item : Timestamp => decide (item.1 < state.ageThresholdMs))
    state.uuids
  have hf := KeyedQueue.size_shiftWhile
    (fun failure : Failure => decide (failure.createdTimeMs < state.ageThresholdMs)) state.failures
  obtain ⟨hd,ha,hp⟩ := h
  refine ⟨hd.clean,?_,?_⟩
  · simp only [total,serverCleanExpiredItems,cleanExpiredSuccesses,cleanExpiredFailures,
      cleanExpiredUuids] at ha ⊢
    omega
  · simp only [total,serverCleanExpiredItems,cleanExpiredSuccesses,cleanExpiredFailures,
      cleanExpiredUuids] at hp ⊢
    omega

/-! How the rings stay disjoint when a uuid goes from one to the other. -/

lemma Disjoint.addUuid {state : TrackerState} {uuid : Bytes} (h : Disjoint state)
    (hf : uuid ∉ state.failures) (hs : uuid ∉ state.successes) : Disjoint (addUuid state uuid) := by
  refine ⟨?_,?_,h.failures_successes⟩
  · intro k hk
    obtain rfl | hk := KeyedQueue.mem_pushBack.mp hk
    · exact hf
    · exact h.uuids_failures k hk
  · intro k hk
    obtain rfl | hk := KeyedQueue.mem_pushBack.mp hk
    · exact hs
    · exact h.uuids_successes k hk

lemma Disjoint.eraseFailure {state : TrackerState} (h : Disjoint state) (uuid : Bytes) :
    Disjoint { state with failures := state.failures.erase uuid } where
  uuids_failures k hu hf := h.uuids_failures k hu (AList.mem_erase.mp hf).2
  uuids_successes := h.uuids_successes
  failures_successes k hf := h.failures_successes k (AList.mem_erase.mp hf).2

lemma Disjoint.park {state : TrackerState} {uuid : Bytes} (h : Disjoint state) (hu : uuid ∉ state.uuids)
    (hs : uuid ∉ state.successes) (failure : Failure) :
    Disjoint { state with failures := state.failures.pushBack uuid failure } := by
  refine ⟨?_,h.uuids_successes,?_⟩
  · intro k hk
    simp only [KeyedQueue.mem_pushBack,not_or]
    refine ⟨?_,h.uuids_failures k hk⟩
    rintro rfl
    exact hu hk
  · intro k hk
    obtain rfl | hk := KeyedQueue.mem_pushBack.mp hk
    · exact hs
    · exact h.failures_successes k hk

lemma Disjoint.succeed {state : TrackerState} {uuid : Bytes} (h : Disjoint state) (hu : uuid ∈ state.uuids)
    (seen : Timestamp) (counters : Counters) :
    Disjoint { state with
      counters := counters
      uuids := state.uuids.erase uuid
      successes := state.successes.pushBack uuid seen } := by
  refine ⟨fun k hk => h.uuids_failures k (AList.mem_erase.mp hk).2,?_,?_⟩
  · intro k hk
    obtain ⟨hne,hk⟩ := AList.mem_erase.mp hk
    simp only [KeyedQueue.mem_pushBack,not_or]
    exact ⟨hne,h.uuids_successes k hk⟩
  · intro k hk
    simp only [KeyedQueue.mem_pushBack,not_or]
    refine ⟨?_,h.failures_successes k hk⟩
    rintro rfl
    exact h.uuids_failures k hu hk

lemma Balanced.add {state : TrackerState} {trace : List Observation} (h : Balanced state trace)
    (uuid : Bytes) : Balanced (serverAddUuid state uuid).1 (trace ++ (serverAddUuid state uuid).2) := by
  obtain ⟨hd,ha,hp⟩ := h
  obtain ⟨hf,msg,heq⟩ | ⟨_,_,heq⟩ | ⟨hf,hs,hu,heq⟩ := serverAddUuid_cases state uuid
  · -- A parked message leaves the failures and is sent again.
    have hu : uuid ∉ state.uuids := fun hc => hd.uuids_failures uuid hc hf
    have hs := hd.failures_successes uuid hf
    have hsize := KeyedQueue.size_pushBack hu state.currentTimeMs
    have herase := KeyedQueue.size_erase hf
    rw [heq]
    refine ⟨(hd.eraseFailure uuid).addUuid (by simp) hs,?_,?_⟩
    · simp [total,addUuid,hsize,Observation.reported] at ha ⊢
      omega
    · simp [total,addUuid,parkedCount,resentCount,Observation.reported,Observation.isParked,
        Observation.isResent] at hp ⊢
      omega
  · rw [heq,List.append_nil]
    exact ⟨hd,ha,hp⟩
  · have hsize := KeyedQueue.size_pushBack hu state.currentTimeMs
    rw [heq,List.append_nil]
    refine ⟨hd.addUuid hf hs,?_,hp⟩
    simp only [total,addUuid,hsize] at ha ⊢
    omega

lemma Balanced.delete {state next : TrackerState} {trace out : List Observation} {uuid : Bytes}
    {msg : List Bytes} (h : Balanced state trace) (heq : deleteUuid state uuid msg = .ok (next,out)) :
    Balanced next (trace ++ out) := by
  obtain ⟨hd,ha,hp⟩ := h
  obtain ⟨hu,rfl,seen,rfl⟩ | ⟨_,_,rfl,rfl⟩ | ⟨hu,hs,hf,rfl,parked,rfl⟩ := deleteUuid_cases heq
  · have herase := KeyedQueue.size_erase hu
    refine ⟨hd.succeed hu seen _,?_,?_⟩
    · simp [total,Observation.reported] at ha ⊢
      omega
    · simpa [total,parkedCount,resentCount,Observation.reported,Observation.isParked,
        Observation.isResent] using hp
  · refine ⟨⟨hd.1,hd.2,hd.3⟩,?_,?_⟩
    · simpa [total,Observation.reported] using ha
    · simpa [total,parkedCount,resentCount,Observation.reported,Observation.isParked,
        Observation.isResent] using hp
  · have hsize := KeyedQueue.size_pushBack hf ⟨state.currentTimeMs.1,parked⟩
    refine ⟨hd.park hu hs _,?_,?_⟩
    · simpa [total,Observation.reported] using ha
    · simp [total,parkedCount,resentCount,Observation.reported,Observation.isParked,
        Observation.isResent,List.countP_cons] at hp ⊢
      omega

/-- A tick hands the counters over to the trace. -/
lemma Balanced.tick {state : TrackerState} {trace : List Observation} (h : Balanced state trace) :
    Balanced (trackerTick state).1 (trace ++ (trackerTick state).2) := by
  obtain ⟨hd,ha,hp⟩ := h.clean
  refine ⟨⟨hd.1,hd.2,hd.3⟩,?_,?_⟩
  · simpa [total,trackerTick,Observation.reported] using ha
  · simpa [total,trackerTick,parkedCount,resentCount,Observation.reported,Observation.isParked,
      Observation.isResent] using hp

lemma Balanced.step {state next : TrackerState} {trace out : List Observation} {event : Event}
    (h : Balanced state trace) (heq : Tracker.step state event = .ok (next,out)) :
    Balanced next (trace ++ out) := by
  cases event with
  | add uuid =>
    obtain ⟨rfl,rfl⟩ := Prod.mk.inj (Except.ok.inj heq)
    exact h.add uuid
  | delete uuid msg => exact h.clean.delete heq
  | tick =>
    obtain ⟨rfl,rfl⟩ := Prod.mk.inj (Except.ok.inj heq)
    exact h.tick
  | setTime now =>
    obtain ⟨rfl,rfl⟩ := Prod.mk.inj (Except.ok.inj heq)
    rw [List.append_nil]
    exact ⟨⟨h.disjoint.1,h.disjoint.2,h.disjoint.3⟩,h.added,h.parked⟩
  | clean =>
    obtain ⟨rfl,rfl⟩ := Prod.mk.inj (Except.ok.inj heq)
    rw [List.append_nil]
    exact h.clean

/-- Every uuid is in at most one ring, every added uuid is deleted, expired or still waiting, and
every parked message is sent again, given up or still parked. -/
theorem tracker_balanced (now : Timestamp) {events : List Event} {state : TrackerState}
    {trace : List Observation}
    (run : Run Tracker.step (fun _ _ => True) (trackerStateNew now) events state trace) :
    Disjoint state ∧
      total Counters.added state trace =
        total Counters.deleted state trace+total Counters.expired state trace+state.uuids.size ∧
      parkedCount trace = resentCount trace+total Counters.failed state trace+state.failures.size := by
  have h := run.invariant (P := fun _ state trace => Balanced state trace)
    ⟨⟨by simp [trackerStateNew,trackerStateSetTimeParams],by simp [trackerStateNew,trackerStateSetTimeParams],
      by simp [trackerStateNew,trackerStateSetTimeParams]⟩,rfl,rfl⟩
    (fun _ _ _ _ _ _ hinv _ heq => hinv.step heq)
  exact ⟨h.disjoint,h.added,h.parked⟩

theorem tracker_balanced_sample : ∃ state trace,
    Run Tracker.step (fun _ _ => True) (trackerStateNew ⟨1000000,by decide⟩)
      [.add (lit "a"),.delete (lit "b") [],.add (lit "b"),.delete (lit "a") [],.tick] state trace ∧
    Disjoint state ∧
      total Counters.added state trace =
        total Counters.deleted state trace+total Counters.expired state trace+state.uuids.size ∧
      parkedCount trace = resentCount trace+total Counters.failed state trace+state.failures.size :=
  have run : Run Tracker.step (fun _ _ => True) (trackerStateNew ⟨1000000,by decide⟩)
      [.add (lit "a"),.delete (lit "b") [],.add (lit "b"),.delete (lit "a") [],.tick] _ _ :=
    (((((Run.start).step trivial rfl).step trivial rfl).step trivial rfl).step trivial rfl).step trivial rfl
  ⟨_,_,run,tracker_balanced _ run⟩

end Logjam.Importer.Tracker
