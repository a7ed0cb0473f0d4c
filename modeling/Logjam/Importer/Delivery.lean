import Logjam.Importer.Tracker

/-! Delivery of frontend messages. A message the tracker sends back to the subscriber is in flight
until a parser asks the tracker for the same uuid once more. -/
namespace Logjam.Importer.Tracker
open Logjam.Library

structure System where
  tracker : TrackerState
  inFlight : List (Bytes × List Bytes)

def systemNew (now : Timestamp) : System := ⟨trackerStateNew now,[]⟩

/-- The requests of the outside world and of the clock, or the arrival of a message in flight. -/
inductive SystemEvent
  | request (event : Event)
  | redeliver (i : ℕ)

def resentMessages (out : List Observation) : List (Bytes × List Bytes) :=
  out.filterMap fun
    | .resent uuid msg => some (uuid,msg)
    | _ => none

def System.step (s : System) : SystemEvent → Except Fault (System × List Observation)
  | .request event => do
    let (tracker,out) ← Tracker.step s.tracker event
    return (⟨tracker,s.inFlight ++ resentMessages out⟩,out)
  | .redeliver i =>
    match s.inFlight[i]? with
    | none => .ok (s,[])
    | some (uuid,msg) => do
      let (tracker,out) ← serverDeleteUuid s.tracker uuid msg
      return (⟨tracker,s.inFlight.eraseIdx i ++ resentMessages out⟩,out)

/-- The steps that look for expired entries find none. -/
def NothingExpires (s : System) : SystemEvent → Prop
  | .request (.add _) => True
  | .request (.setTime _) => True
  | _ => serverCleanExpiredItems s.tracker = s.tracker

def additions (u : Bytes) (events : List SystemEvent) : ℕ :=
  events.countP fun
    | .request (.add v) => v = u
    | _ => false

def deletions (u : Bytes) (events : List SystemEvent) : ℕ :=
  events.countP fun
    | .request (.delete v _) => v = u
    | _ => false

def acceptances (u : Bytes) (trace : List Observation) : ℕ :=
  trace.countP fun
    | .answered v rc => v = u && rc
    | _ => false

def resends (u : Bytes) (trace : List Observation) : ℕ :=
  trace.countP fun
    | .resent v _ => v = u
    | _ => false

def pending (u : Bytes) (inFlight : List (Bytes × List Bytes)) : ℕ := inFlight.countP fun m => m.1 = u

/-- The ways a uuid goes through the tracker, with what has been counted for it: additions,
deletions, accepted deletions, messages sent back and messages still in flight. -/
inductive Phase (state : TrackerState) (u : Bytes) (A D S R F : ℕ) : Prop
  | unseen (hu : u ∉ state.uuids) (hf : u ∉ state.failures) (hs : u ∉ state.successes)
      (counts : A = 0 ∧ D = 0 ∧ S = 0 ∧ R = 0 ∧ F = 0)
  | parked (hu : u ∉ state.uuids) (hf : u ∈ state.failures) (hs : u ∉ state.successes)
      (counts : A = 0 ∧ 0 < D ∧ S = 0 ∧ R = 0 ∧ F = 0)
  | waiting (hu : u ∈ state.uuids) (hf : u ∉ state.failures) (hs : u ∉ state.successes)
      (counts : 0 < A ∧ D = 0 ∧ S = 0 ∧ R = 0 ∧ F = 0)
  | recalled (hu : u ∈ state.uuids) (hf : u ∉ state.failures) (hs : u ∉ state.successes)
      (counts : 0 < A ∧ 0 < D ∧ S = 0 ∧ R = 1 ∧ F = 1)
  | accepted (hu : u ∉ state.uuids) (hf : u ∉ state.failures) (hs : u ∈ state.successes)
      (counts : 0 < A ∧ 0 < D ∧ S = 1 ∧ R ≤ 1 ∧ F ≤ R)

variable {state next : TrackerState} {u : Bytes} {A D S R F : ℕ}

lemma Phase.congr (h : Phase state u A D S R F) (hu : u ∈ next.uuids ↔ u ∈ state.uuids)
    (hf : u ∈ next.failures ↔ u ∈ state.failures) (hs : u ∈ next.successes ↔ u ∈ state.successes) :
    Phase next u A D S R F := by
  cases h with
  | unseen mu mf ms counts => exact .unseen (mt hu.mp mu) (mt hf.mp mf) (mt hs.mp ms) counts
  | parked mu mf ms counts => exact .parked (mt hu.mp mu) (hf.mpr mf) (mt hs.mp ms) counts
  | waiting mu mf ms counts => exact .waiting (hu.mpr mu) (mt hf.mp mf) (mt hs.mp ms) counts
  | recalled mu mf ms counts => exact .recalled (hu.mpr mu) (mt hf.mp mf) (mt hs.mp ms) counts
  | accepted mu mf ms counts => exact .accepted (mt hu.mp mu) (mt hf.mp mf) (hs.mpr ms) counts

/-- An addition of the uuid itself. -/
lemma Phase.add_self (h : Phase state u A D S R F) :
    acceptances u (serverAddUuid state u).2 = 0 ∧
      Phase (serverAddUuid state u).1 u (A+1) D S (R+resends u (serverAddUuid state u).2)
        (F+resends u (serverAddUuid state u).2) := by
  obtain ⟨mf,msg,heq⟩ | ⟨mf,mseen,heq⟩ | ⟨mf,ms,mu,heq⟩ := serverAddUuid_cases state u
  · have hout : resends u [.resent u msg] = 1 := by simp [resends]
    rw [heq]
    refine ⟨rfl,?_⟩
    cases h with
    | parked hu hf hs counts =>
      rw [hout]
      exact .recalled (by simp [addUuid]) (by simp [addUuid]) hs (by omega)
    | unseen hu hf hs counts => exact absurd mf hf
    | waiting hu hf hs counts => exact absurd mf hf
    | recalled hu hf hs counts => exact absurd mf hf
    | accepted hu hf hs counts => exact absurd mf hf
  · rw [heq]
    refine ⟨rfl,?_⟩
    change Phase state u (A+1) D S R F
    cases h with
    | unseen hu hf hs counts => exact absurd mseen (by simp [hu,hs])
    | parked hu hf hs counts => exact absurd hf mf
    | waiting hu hf hs counts => exact .waiting hu hf hs (by omega)
    | recalled hu hf hs counts => exact .recalled hu hf hs (by omega)
    | accepted hu hf hs counts => exact .accepted hu hf hs (by omega)
  · rw [heq]
    refine ⟨rfl,?_⟩
    change Phase (addUuid state u) u (A+1) D S R F
    cases h with
    | unseen hu hf hs counts => exact .waiting (by simp [addUuid]) hf hs (by omega)
    | parked hu hf hs counts => exact absurd hf mf
    | waiting hu hf hs counts => exact absurd hu mu
    | recalled hu hf hs counts => exact absurd hu mu
    | accepted hu hf hs counts => exact absurd hs ms

lemma Phase.add_other (h : Phase state u A D S R F) {v : Bytes} (hne : v ≠ u) :
    acceptances u (serverAddUuid state v).2 = 0 ∧ resends u (serverAddUuid state v).2 = 0 ∧
      Phase (serverAddUuid state v).1 u A D S R F := by
  obtain ⟨_,msg,heq⟩ | ⟨_,_,heq⟩ | ⟨_,_,_,heq⟩ := serverAddUuid_cases state v
  · rw [heq]
    exact ⟨rfl,by simp [resends,hne],h.congr (by simp [addUuid,hne.symm]) (by simp [addUuid,hne.symm]) .rfl⟩
  · rw [heq]
    exact ⟨rfl,rfl,h⟩
  · rw [heq]
    exact ⟨rfl,rfl,h.congr (by simp [addUuid,hne.symm]) .rfl .rfl⟩

/-- A deletion of the uuid itself, either a new one or by a message that was in flight. -/
lemma Phase.delete_self (h : Phase state u A D S R F) {msg : List Bytes} {out : List Observation}
    (heq : deleteUuid state u msg = .ok (next,out)) :
    Phase next u A (D+1) (S+acceptances u out) R F ∧
      (0 < F → Phase next u A D (S+acceptances u out) R (F-1)) := by
  obtain ⟨mu,rfl,seen,rfl⟩ | ⟨mu,mseen,rfl,rfl⟩ | ⟨mu,ms,mf,rfl,failure,rfl⟩ := deleteUuid_cases heq
  · have hout : acceptances u [.answered u true] = 1 := by simp [acceptances]
    rw [hout]
    cases h with
    | waiting hu hf hs counts =>
      exact ⟨.accepted (by simp) hf (by simp) (by omega),fun hF => absurd hF (by omega)⟩
    | recalled hu hf hs counts =>
      exact ⟨.accepted (by simp) hf (by simp) (by omega),fun _ => .accepted (by simp) hf (by simp) (by omega)⟩
    | unseen hu hf hs counts => exact absurd mu hu
    | parked hu hf hs counts => exact absurd mu hu
    | accepted hu hf hs counts => exact absurd mu hu
  · have hout : acceptances u [.answered u false] = 0 := by simp [acceptances]
    rw [hout]
    cases h with
    | unseen hu hf hs counts => exact absurd mseen (by simp [hs,hf])
    | parked hu hf hs counts =>
      exact ⟨.parked hu hf hs (by omega),fun hF => absurd hF (by omega)⟩
    | waiting hu hf hs counts => exact absurd hu mu
    | recalled hu hf hs counts => exact absurd hu mu
    | accepted hu hf hs counts =>
      exact ⟨.accepted hu hf hs (by omega),fun _ => .accepted hu hf hs (by omega)⟩
  · have hout : acceptances u [.parked u,.answered u false] = 0 := by simp [acceptances]
    rw [hout]
    cases h with
    | unseen hu hf hs counts =>
      exact ⟨.parked hu (by simp) hs (by omega),fun hF => absurd hF (by omega)⟩
    | parked hu hf hs counts => exact absurd hf mf
    | waiting hu hf hs counts => exact absurd hu mu
    | recalled hu hf hs counts => exact absurd hu mu
    | accepted hu hf hs counts => exact absurd hs ms

lemma Phase.delete_other (h : Phase state u A D S R F) {v : Bytes} (hne : v ≠ u) {msg : List Bytes}
    {out : List Observation} (heq : deleteUuid state v msg = .ok (next,out)) :
    acceptances u out = 0 ∧ Phase next u A D S R F := by
  obtain ⟨_,rfl,seen,rfl⟩ | ⟨_,_,rfl,rfl⟩ | ⟨_,_,_,rfl,failure,rfl⟩ := deleteUuid_cases heq
  · exact ⟨by simp [acceptances,hne],h.congr (by simp [hne.symm]) .rfl (by simp [hne.symm])⟩
  · exact ⟨by simp [acceptances],h.congr .rfl .rfl .rfl⟩
  · exact ⟨by simp [acceptances],h.congr .rfl (by simp [hne.symm]) .rfl⟩

lemma deleteUuid_resent {v : Bytes} {msg : List Bytes} {out : List Observation}
    (heq : deleteUuid state v msg = .ok (next,out)) : resends u out = 0 ∧ resentMessages out = [] := by
  obtain ⟨_,rfl,_⟩ | ⟨_,_,rfl,_⟩ | ⟨_,_,_,rfl,_⟩ := deleteUuid_cases heq
  · exact ⟨rfl,rfl⟩
  · exact ⟨rfl,rfl⟩
  · exact ⟨rfl,rfl⟩

lemma pending_resentMessages (u : Bytes) (out : List Observation) :
    pending u (resentMessages out) = resends u out := by
  induction out with
  | nil => rfl
  | cons o rest ih =>
    cases o with
    | resent v msg => simpa [pending,resentMessages,resends,List.countP_cons] using ih
    | answered v rc => simpa [pending,resentMessages,resends] using ih
    | parked v => simpa [pending,resentMessages,resends] using ih
    | report c => simpa [pending,resentMessages,resends] using ih

lemma pending_eraseIdx {inFlight : List (Bytes × List Bytes)} {i : ℕ} {m : Bytes × List Bytes}
    (h : inFlight[i]? = some m) (u : Bytes) :
    pending u inFlight = pending u (inFlight.eraseIdx i)+if m.1 = u then 1 else 0 := by
  obtain ⟨hi,rfl⟩ := List.getElem?_eq_some_iff.mp h
  have hp := (List.getElem_cons_eraseIdx_perm hi).countP_eq fun m => decide (m.1 = u)
  rw [List.countP_cons] at hp
  simpa [pending] using hp.symm

/-- The phase of a uuid after some events, with what the events and the trace count for it. -/
def InPhase (events : List SystemEvent) (s : System) (trace : List Observation) : Prop :=
  ∀ u, Phase s.tracker u (additions u events) (deletions u events) (acceptances u trace)
    (resends u trace) (pending u s.inFlight)

lemma additions_append (u : Bytes) (events : List SystemEvent) (e : SystemEvent) :
    additions u (events ++ [e]) = additions u events+additions u [e] := List.countP_append

lemma deletions_append (u : Bytes) (events : List SystemEvent) (e : SystemEvent) :
    deletions u (events ++ [e]) = deletions u events+deletions u [e] := List.countP_append

lemma acceptances_append (u : Bytes) (trace out : List Observation) :
    acceptances u (trace ++ out) = acceptances u trace+acceptances u out := List.countP_append

lemma resends_append (u : Bytes) (trace out : List Observation) :
    resends u (trace ++ out) = resends u trace+resends u out := List.countP_append

lemma pending_append (u : Bytes) (inFlight : List (Bytes × List Bytes)) (out : List Observation) :
    pending u (inFlight ++ resentMessages out) = pending u inFlight+resends u out := by
  rw [← pending_resentMessages]
  exact List.countP_append

/-- One request to the tracker, with what it adds to the counts of the uuid. -/
lemma Phase.request {event : Event} {r : TrackerState × List Observation}
    {inFlight : List (Bytes × List Bytes)} (h : Phase state u A D S R F)
    (hexp : NothingExpires ⟨state,inFlight⟩ (.request event)) (hstep : Tracker.step state event = .ok r) :
    Phase r.1 u (A+additions u [.request event]) (D+deletions u [.request event])
      (S+acceptances u r.2) (R+resends u r.2) (F+resends u r.2) := by
  cases event with
  | add v =>
    obtain rfl := Except.ok.inj hstep
    by_cases hv : v = u
    · subst hv
      obtain ⟨hacc,hphase⟩ := h.add_self
      simpa [additions,deletions,hacc] using hphase
    · obtain ⟨hacc,hres,hphase⟩ := h.add_other hv
      simpa [additions,deletions,hv,hacc,hres] using hphase
  | delete v msg =>
    have hc : serverCleanExpiredItems state = state := hexp
    rw [Tracker.step,serverDeleteUuid,hc] at hstep
    have hres := (deleteUuid_resent (u := u) hstep).1
    by_cases hv : v = u
    · subst hv
      simpa [additions,deletions,hres] using (h.delete_self hstep).1
    · obtain ⟨hacc,hphase⟩ := h.delete_other hv hstep
      simpa [additions,deletions,hv,hacc,hres] using hphase
  | tick =>
    obtain rfl := Except.ok.inj hstep
    have hc : serverCleanExpiredItems state = state := hexp
    rw [trackerTick,hc]
    exact h.congr .rfl .rfl .rfl
  | setTime now =>
    obtain rfl := Except.ok.inj hstep
    exact h.congr .rfl .rfl .rfl
  | clean =>
    obtain rfl := Except.ok.inj hstep
    have hc : serverCleanExpiredItems state = state := hexp
    rw [hc]
    exact h

lemma InPhase.request {events : List SystemEvent} {s next : System} {trace out : List Observation}
    {event : Event} (h : InPhase events s trace) (hexp : NothingExpires s (.request event))
    (heq : s.step (.request event) = .ok (next,out)) :
    InPhase (events ++ [.request event]) next (trace ++ out) := by
  intro u
  simp only [System.step] at heq
  cases hstep : Tracker.step s.tracker event with
  | error e => rw [hstep] at heq; cases heq
  | ok r =>
    rw [hstep] at heq
    obtain ⟨rfl,rfl⟩ := Prod.mk.inj (Except.ok.inj heq)
    rw [additions_append,deletions_append,acceptances_append,resends_append,pending_append]
    exact (h u).request hexp hstep

lemma InPhase.redeliver {events : List SystemEvent} {s next : System} {trace out : List Observation}
    {i : ℕ} (h : InPhase events s trace) (hexp : NothingExpires s (.redeliver i))
    (heq : s.step (.redeliver i) = .ok (next,out)) :
    InPhase (events ++ [.redeliver i]) next (trace ++ out) := by
  intro u
  have hu := h u
  have hc : serverCleanExpiredItems s.tracker = s.tracker := hexp
  rw [additions_append,deletions_append,acceptances_append,resends_append]
  change Phase _ _ (additions u events) (deletions u events) _ _ _
  simp only [System.step] at heq
  cases hi : s.inFlight[i]? with
  | none =>
    rw [hi] at heq
    obtain ⟨rfl,rfl⟩ := Prod.mk.inj (Except.ok.inj heq)
    exact hu
  | some m =>
    have hpend := pending_eraseIdx hi u
    simp only [hi,serverDeleteUuid,hc] at heq
    cases hdel : deleteUuid s.tracker m.1 m.2 with
    | error e => rw [hdel] at heq; cases heq
    | ok r =>
      rw [hdel] at heq
      obtain ⟨rfl,rfl⟩ := Prod.mk.inj (Except.ok.inj heq)
      obtain ⟨hres,hmsgs⟩ := deleteUuid_resent (u := u) hdel
      rw [hmsgs,List.append_nil,hres,add_zero]
      by_cases hv : m.1 = u
      · rw [if_pos hv] at hpend
        rw [hv] at hdel
        have hphase := (hu.delete_self hdel).2 (by omega)
        rwa [hpend] at hphase
      · obtain ⟨hacc,hphase⟩ := hu.delete_other hv hdel
        rw [if_neg hv,add_zero] at hpend
        rwa [hacc,add_zero,← hpend]

/-- At most one deletion of a uuid is accepted and at most one message is sent back for it. When
nothing is in flight for it, a deletion has been accepted if there was an addition and a deletion. -/
theorem delivery_exactly_once (now : Timestamp) {events : List SystemEvent} {s : System}
    {trace : List Observation}
    (run : Run System.step NothingExpires (systemNew now) events s trace) (u : Bytes) :
    acceptances u trace ≤ 1 ∧ resends u trace ≤ 1 ∧
      (pending u s.inFlight = 0 →
        (acceptances u trace = 1 ↔ 1 ≤ additions u events ∧ 1 ≤ deletions u events)) := by
  have h := run.invariant (P := InPhase)
    (fun v => .unseen (AList.notMem_empty v) (AList.notMem_empty v) (AList.notMem_empty v)
      ⟨rfl,rfl,rfl,rfl,rfl⟩)
    (fun _ _ _ event _ _ hinv hexp heq => by
      cases event with
      | request event => exact hinv.request hexp heq
      | redeliver i => exact hinv.redeliver hexp heq) u
  cases h with
  | unseen hu hf hs counts => omega
  | parked hu hf hs counts => omega
  | waiting hu hf hs counts => omega
  | recalled hu hf hs counts => omega
  | accepted hu hf hs counts => omega

/-- A message that comes before its request, comes again, and is sent back in the meantime. -/
theorem delivery_exactly_once_sample : ∃ s trace,
    Run System.step NothingExpires (systemNew ⟨1000000,by decide⟩)
      [.request (.delete (lit "a") []),.request (.add (lit "a")),.request (.delete (lit "a") []),
        .redeliver 0] s trace ∧
    acceptances (lit "a") trace ≤ 1 ∧ resends (lit "a") trace ≤ 1 ∧
      (pending (lit "a") s.inFlight = 0 → (acceptances (lit "a") trace = 1 ↔ 1 ≤ 1 ∧ 1 ≤ 2)) :=
  have run : Run System.step NothingExpires (systemNew ⟨1000000,by decide⟩)
      [.request (.delete (lit "a") []),.request (.add (lit "a")),.request (.delete (lit "a") []),
        .redeliver 0] _ _ :=
    ((((Run.start).step (by trivial) rfl).step (by trivial) rfl).step (by trivial) rfl).step (by trivial) rfl
  ⟨_,_,run,delivery_exactly_once _ run (lit "a")⟩

end Logjam.Importer.Tracker
