import Logjam.Library.Ensures
import Logjam.Exporter.Collector

/-! The collectors of the exporter, one for each stream it exports. The map is guarded by a mutex;
the other goroutines only hold it while they look up a collector. -/
namespace Logjam.Exporter
open Library
open Logjam.Importer (ZHash)

/-- A stream as the application describes it. -/
structure Stream where
  ignoredRequestURI : Bytes
  apiRequests : List Bytes

structure Options where
  datacenters : Bytes
  defaultDC : Bytes

/-- A collector with the fields its manager uses. -/
structure ManagedCollector extends Collector where
  name : Bytes
  apiRequests : List Bytes
  datacenters : List Bytes
  stopped : ℕ

/-- The environment is what follows the last dash. -/
def parseStreamName (appEnv : Bytes) : Bytes × Bytes :=
  let slices := appEnv.splitOn 45
  if slices.length < 2 then ([],[])
  else (List.intercalate [45] slices.dropLast,slices.getLastD [])

/-- New does not set the field Name. -/
def ManagedCollector.new (opts : Options) (appEnv : Bytes) (stream : Stream) : ManagedCollector where
  app := (parseStreamName appEnv).1
  env := (parseStreamName appEnv).2
  ignoredRequestURI := stream.ignoredRequestURI
  defaultDC := opts.defaultDC
  name := []
  apiRequests := stream.apiRequests
  datacenters := (opts.datacenters.splitOn 44).filter (· ≠ [])
  stopped := 0

structure Manager where
  collectors : ZHash ManagedCollector
  locked : Bool

def Manager.initial : Manager := ⟨∅,false⟩

/-- A goroutine that locks the mutex while it holds it itself waits for ever. -/
def Manager.lock (m : Manager) : Except Fault Manager :=
  if m.locked then .error .stillRunning else .ok { m with locked := true }

def Manager.unlock (m : Manager) : Manager := { m with locked := false }

def addCollector (opts : Options) (m : Manager) (appEnv : Bytes) (stream : Stream) : Except Fault Manager := do
  let m ← m.lock
  let m := if appEnv ∈ m.collectors then m
    else { m with collectors := m.collectors.insert appEnv (ManagedCollector.new opts appEnv stream) }
  return m.unlock

/-- Shutdown stops the goroutines of the collector, which is no longer in the map. -/
def removeCollector (m : Manager) (c : ManagedCollector) : Except Fault (Manager × ManagedCollector) := do
  let m ← m.lock
  let m := { m with collectors := m.collectors.erase c.name }
  return (m.unlock,{ c with stopped := c.stopped+1 })

/-- The order in which a loop runs over a map. -/
structure MapOrder where
  order : {α : Type} → List α → List α
  perm : ∀ {α : Type} (l : List α), (order l).Perm l

def MapOrder.ascending : MapOrder := ⟨id,fun _ => .rfl⟩

/-- The streams of the environment, which may be left open. -/
def Selected (env s : Bytes) : Prop := env = [] ∨ lit "-" ++ env <:+ s

instance (env s : Bytes) : Decidable (Selected env s) := inferInstanceAs (Decidable (_ ∨ _))

def addStreams (opts : Options) (env : Bytes) (streams : List (Bytes × Stream)) (m : Manager) : Except Fault Manager :=
  streams.foldlM (fun m stream =>
    if Selected env stream.1 then addCollector opts m stream.1 stream.2 else .ok m) m

/-- An entry that has been deleted meanwhile is not visited. -/
def removeStreams (streams : ZHash Stream) (entries : List (Bytes × ManagedCollector)) (m : Manager) :
    Except Fault Manager :=
  entries.foldlM (fun m entry =>
    if entry.1 ∈ m.collectors ∧ entry.1 ∉ streams then do
      let (m,_) ← removeCollector m entry.2
      return m
    else .ok m) m

/-- UpdateStreams, with the answer of the application. -/
def updateStreams (opts : Options) (env : Bytes) (loop : MapOrder) (m : Manager) :
    Option (ZHash Stream) → Except Fault Manager
  | none => .ok m
  | some streams => do
    let m ← addStreams opts env (loop.order streams.toList) m
    let m ← m.lock
    let m ← removeStreams streams (loop.order m.collectors.toList) m
    return m.unlock

/-- Earlier calls with the same environment, all of which have returned. -/
def updates (opts : Options) (env : Bytes) (history : List (MapOrder × Option (ZHash Stream))) : Except Fault Manager :=
  history.foldlM (fun m call => updateStreams opts env call.1 m call.2) Manager.initial

variable (opts : Options) (env : Bytes) {m : Manager}

lemma Manager.lock_of_unlocked (h : m.locked = false) : m.lock = .ok { m with locked := true } :=
  if_neg (by simp [h])

lemma Manager.lock_of_locked (h : m.locked = true) : m.lock = .error .stillRunning := if_pos h

lemma yields_addCollector (h : m.locked = false) (s : Bytes) (stream : Stream) :
    Yields (addCollector opts m s stream) fun after => after.locked = false ∧
      ∀ k, k ∈ after.collectors ↔ k = s ∨ k ∈ m.collectors := by
  unfold addCollector
  rw [Manager.lock_of_unlocked h]
  refine ⟨_,rfl,rfl,fun k => ?_⟩
  by_cases hs : s ∈ m.collectors
  · simp only [hs,if_true,Manager.unlock]
    exact ⟨.inr,fun hk => hk.elim (fun heq => heq ▸ hs) id⟩
  · simp only [hs,if_false,Manager.unlock,Std.ExtTreeMap.mem_insert,Std.LawfulEqCmp.compare_eq_iff_eq]
    rw [eq_comm]

lemma yields_addStreams (h : m.locked = false) (streams : List (Bytes × Stream)) :
    Yields (addStreams opts env streams m) fun after => after.locked = false ∧
      ∀ k, k ∈ after.collectors ↔ k ∈ m.collectors ∨ Selected env k ∧ k ∈ streams.map Prod.fst := by
  induction streams generalizing m with
  | nil => exact ⟨m,rfl,h,fun k => by simp⟩
  | cons stream streams ih =>
    unfold addStreams
    rw [List.foldlM_cons]
    by_cases hselected : Selected env stream.1
    · rw [if_pos hselected]
      refine (yields_addCollector opts h stream.1 stream.2).bind fun next hnext => ?_
      obtain ⟨after,hafter,hlocked,hmem⟩ := ih hnext.1
      refine ⟨after,hafter,hlocked,fun k => ?_⟩
      rw [hmem k,hnext.2 k,List.map_cons,List.mem_cons]
      constructor
      · rintro ((rfl | hk) | hk)
        · exact .inr ⟨hselected,.inl rfl⟩
        · exact .inl hk
        · exact .inr ⟨hk.1,.inr hk.2⟩
      · rintro (hk | ⟨hk,rfl | hmore⟩)
        · exact .inl (.inr hk)
        · exact .inl (.inl rfl)
        · exact .inr ⟨hk,hmore⟩
    · rw [if_neg hselected]
      obtain ⟨after,hafter,hlocked,hmem⟩ := ih h
      refine ⟨after,hafter,hlocked,fun k => ?_⟩
      rw [hmem k,List.map_cons,List.mem_cons]
      refine or_congr_right (and_congr_right fun hk => (or_iff_right ?_).symm)
      rintro rfl
      exact hselected hk

variable {streams : ZHash Stream} {entries : List (Bytes × ManagedCollector)}

lemma removeStreams_of_subset (h : ∀ entry ∈ entries, entry.1 ∈ streams) : removeStreams streams entries m = .ok m := by
  induction entries with
  | nil => rfl
  | cons entry entries ih =>
    obtain ⟨hentry,hentries⟩ := List.forall_mem_cons.mp h
    unfold removeStreams
    rw [List.foldlM_cons,if_neg fun hgone => hgone.2 hentry]
    exact ih hentries

/-- The loop holds the mutex, so it does not get past a stream that has disappeared. -/
lemma removeStreams_of_disappeared (hlocked : m.locked = true)
    (h : ∃ entry ∈ entries, entry.1 ∈ m.collectors ∧ entry.1 ∉ streams) :
    removeStreams streams entries m = .error .stillRunning := by
  induction entries with
  | nil => simp at h
  | cons entry entries ih =>
    unfold removeStreams
    rw [List.foldlM_cons]
    by_cases hgone : entry.1 ∈ m.collectors ∧ entry.1 ∉ streams
    · rw [if_pos hgone,removeCollector,Manager.lock_of_locked hlocked]
      rfl
    · rw [if_neg hgone]
      exact ih (((List.exists_mem_cons_iff _ _ _).mp h).resolve_left hgone)

lemma mem_keys_toList {V : Type} {map : ZHash V} {k : Bytes} : k ∈ map.toList.map Prod.fst ↔ k ∈ map := by
  rw [Std.ExtTreeMap.map_fst_toList_eq_keys,Std.ExtTreeMap.mem_keys]

/-- What the first loop leaves for the second one. -/
lemma updateStreams_eq (loop : MapOrder) (h : m.locked = false) (streams : ZHash Stream) :
    ∃ added : Manager, added.locked = true ∧
      (∀ k, k ∈ added.collectors ↔ k ∈ m.collectors ∨ Selected env k ∧ k ∈ streams) ∧
      updateStreams opts env loop m (some streams) =
        removeStreams streams (loop.order added.collectors.toList) added >>= fun after => .ok after.unlock := by
  obtain ⟨added,hadded,hlocked,hmem⟩ := yields_addStreams opts env h (loop.order streams.toList)
  refine ⟨{ added with locked := true },rfl,fun k => ?_,?_⟩
  · rw [hmem k,((loop.perm streams.toList).map Prod.fst).mem_iff,mem_keys_toList]
  · rw [updateStreams,hadded]
    change added.lock >>= _ = _
    rw [Manager.lock_of_unlocked hlocked]
    rfl

lemma yields_updateStreams (loop : MapOrder) (h : m.locked = false) (hsub : ∀ k ∈ m.collectors, k ∈ streams) :
    Yields (updateStreams opts env loop m (some streams)) fun after => after.locked = false ∧
      ∀ k, k ∈ after.collectors ↔ k ∈ m.collectors ∨ Selected env k ∧ k ∈ streams := by
  obtain ⟨added,-,hmem,heq⟩ := updateStreams_eq opts env loop h streams
  have hstay : ∀ entry ∈ loop.order added.collectors.toList, entry.1 ∈ streams := by
    intro entry hentry
    have hkey : entry.1 ∈ added.collectors :=
      mem_keys_toList.mp (List.mem_map_of_mem ((loop.perm added.collectors.toList).mem_iff.mp hentry))
    exact ((hmem _).mp hkey).elim (hsub _) And.right
  rw [heq,removeStreams_of_subset hstay]
  exact ⟨_,rfl,rfl,hmem⟩

lemma updateStreams_of_disappeared (loop : MapOrder) (h : m.locked = false) {k : Bytes} (hk : k ∈ m.collectors)
    (hgone : k ∉ streams) : updateStreams opts env loop m (some streams) = .error .stillRunning := by
  obtain ⟨added,hlocked,hmem,heq⟩ := updateStreams_eq opts env loop h streams
  have hkey : k ∈ added.collectors := (hmem k).mpr (.inl hk)
  obtain ⟨entry,hentry,rfl⟩ := List.mem_map.mp (mem_keys_toList.mpr hkey)
  rw [heq,removeStreams_of_disappeared hlocked
    ⟨entry,(loop.perm _).mem_iff.mpr hentry,hkey,hgone⟩]
  rfl

/-- Between the calls the mutex is free and all collectors belong to the environment. -/
lemma updates_inv {history : List (MapOrder × Option (ZHash Stream))} (h : updates opts env history = .ok m) :
    m.locked = false ∧ ∀ k ∈ m.collectors, Selected env k := by
  have hloop : Ensures (updates opts env history) fun m => m.locked = false ∧ ∀ k ∈ m.collectors, Selected env k := by
    refine Ensures.foldlM (fun m hm call _ => ?_) ⟨rfl,fun k hk => absurd hk Std.ExtTreeMap.not_mem_empty⟩
    obtain ⟨loop,answer⟩ := call
    cases answer with
    | none => exact Ensures.ok hm
    | some streams =>
      by_cases hsub : ∀ k ∈ m.collectors, k ∈ streams
      · obtain ⟨after,hafter,hlocked,hmem⟩ := yields_updateStreams opts env loop hm.1 hsub
        rw [hafter]
        exact Ensures.ok ⟨hlocked,fun k hk => ((hmem k).mp hk).elim (hm.2 k) And.left⟩
      · push Not at hsub
        obtain ⟨k,hk,hgone⟩ := hsub
        rw [updateStreams_of_disappeared opts env loop hm.1 hk hgone]
        exact Ensures.error
  exact hloop m h

/-- UpdateStreams returns, with the mutex released and with a collector for every selected stream
and no other, just if no stream with a collector has disappeared. -/
theorem updateStreams_converges_iff (opts : Options) (env : Bytes) (history : List (MapOrder × Option (ZHash Stream)))
    (m : Manager) (h : updates opts env history = .ok m) (loop : MapOrder) (streams : ZHash Stream) :
    (∃ after, updateStreams opts env loop m (some streams) = .ok after ∧ after.locked = false ∧
      ∀ k, k ∈ after.collectors ↔ k ∈ streams ∧ Selected env k) ↔ ∀ k ∈ m.collectors, k ∈ streams := by
  obtain ⟨hlocked,hselected⟩ := updates_inv opts env h
  constructor
  · rintro ⟨after,hafter,-⟩ k hk
    by_contra hgone
    rw [updateStreams_of_disappeared opts env loop hlocked hk hgone] at hafter
    cases hafter
  · intro hsub
    obtain ⟨after,hafter,hunlocked,hmem⟩ := yields_updateStreams opts env loop hlocked hsub
    refine ⟨after,hafter,hunlocked,fun k => (hmem k).trans ?_⟩
    constructor
    · rintro (hk | ⟨hk,hstream⟩)
      · exact ⟨hsub k hk,hselected k hk⟩
      · exact ⟨hstream,hk⟩
    · exact fun hk => .inr ⟨hk.2,hk.1⟩

/-- The shop in production. -/
def shopStreams : ZHash Stream := (∅ : ZHash Stream).insert (lit "shop-prod") ⟨[],[]⟩

def sampleOptions : Options := ⟨[],lit "dc"⟩

/-- The first call makes a collector for the shop. -/
lemma updates_shopStreams : ∃ m,updates sampleOptions (lit "prod") [(.ascending,some shopStreams)] = .ok m ∧
    m.locked = false ∧ ∀ k, k ∈ m.collectors ↔ k ∈ Manager.initial.collectors ∨ Selected (lit "prod") k ∧ k ∈ shopStreams := by
  have hnone : ∀ k ∈ Manager.initial.collectors, k ∈ shopStreams := fun _ hk => absurd hk Std.ExtTreeMap.not_mem_empty
  obtain ⟨m,hm,hlocked,hmem⟩ := yields_updateStreams sampleOptions (lit "prod") .ascending rfl hnone
  refine ⟨m,?_,hlocked,hmem⟩
  rw [updates,List.foldlM_cons,hm]
  rfl

/-- The cart comes on top of the shop. -/
theorem updateStreams_converges_second : ∃ m,
    updates sampleOptions (lit "prod") [(.ascending,some shopStreams)] = .ok m ∧ lit "shop-prod" ∈ m.collectors ∧
      ∃ after,updateStreams sampleOptions (lit "prod") .ascending m (some (shopStreams.insert (lit "cart-prod") ⟨[],[]⟩)) =
          .ok after ∧ after.locked = false ∧
        ∀ k, k ∈ after.collectors ↔ k ∈ shopStreams.insert (lit "cart-prod") ⟨[],[]⟩ ∧ Selected (lit "prod") k := by
  obtain ⟨m,hm,-,hmem⟩ := updates_shopStreams
  refine ⟨m,hm,(hmem _).mpr (.inr ⟨by decide,Std.ExtTreeMap.mem_insert_self⟩),?_⟩
  refine (updateStreams_converges_iff sampleOptions (lit "prod") _ m hm .ascending _).mpr fun k hk => ?_
  have hshop := ((hmem k).mp hk).resolve_left Std.ExtTreeMap.not_mem_empty
  exact Std.ExtTreeMap.mem_insert.mpr (.inr hshop.2)

/-- The shop is exported and then no longer among the streams. -/
theorem updateStreams_deadlock : ∃ m,
    updates sampleOptions (lit "prod") [(.ascending,some shopStreams)] = .ok m ∧
      updateStreams sampleOptions (lit "prod") .ascending m (some ∅) = .error .stillRunning := by
  obtain ⟨m,hm,hlocked,hmem⟩ := updates_shopStreams
  have hshop : lit "shop-prod" ∈ m.collectors :=
    (hmem _).mpr (.inr ⟨by decide,Std.ExtTreeMap.mem_insert_self⟩)
  exact ⟨m,hm,updateStreams_of_disappeared _ _ _ hlocked hshop Std.ExtTreeMap.not_mem_empty⟩

end Logjam.Exporter
