import Logjam.Importer.StatsUpdater
import Logjam.Importer.Repair
import Logjam.Importer.Selectors
import Logjam.Library.MergeFold

/-! What the updaters make of the aggregates. The controller sends each of them for each database; an
updater turns every entry into an upsert of the document that the key selects. Failed assertions on
the size of a bson document and dry runs are not modelled. -/
namespace Logjam.Importer
open Logjam.Library Logjam.Library.MergeMap

variable {n : ℕ}

/-- The collections of a database that the updaters write to. -/
inductive Collection
  | totals
  | minutes
  | quants
  | heatmaps
  | agents
  deriving DecidableEq

inductive Selector
  | page (page : Bytes)
  | minute (page : Bytes) (minute : ℤ)
  | quant (page kind : Bytes) (quant : ℤ)
  | agent (agent : Bytes)
  deriving DecidableEq

structure Address where
  dbName : Bytes
  collection : Collection
  selector : Selector
  deriving DecidableEq

structure StatsUpdate where
  address : Address
  update : UpdateDocument

abbrev Database := Address → Option Document

/-- MONGOC_UPDATE_UPSERT: a missing document is created. -/
def upsert (database : Database) (w : StatsUpdate) : Database :=
  Function.update database w.address (some (applyUpdate ((database w.address).getD ∅) w.update))

def totalsAddIncrements (res : Resources n) (dbName ns : Bytes) (incs : Increments n) :
    Except Fault StatsUpdate :=
  .ok ⟨⟨dbName,.totals,.page ns⟩,incrementsToBson res incs⟩

def minutesAddIncrements (res : Resources n) (dbName ns : Bytes) (incs : Increments n) :
    Except Fault StatsUpdate := do
  let s ← minutesSelector ns
  return ⟨⟨dbName,.minutes,.minute s.page s.minute⟩,incrementsToBson res incs⟩

def quantsAddQuants (res : Resources n) (dbName ns : Bytes) (quants : Fin n → ℕ) :
    Except Fault StatsUpdate := do
  let s ← quantsSelector ns
  return ⟨⟨dbName,.quants,.quant s.page s.kind s.quant⟩,
    ⟨(List.finRange n).flatMap fun i => appendCount (res.intToResource i) (quants i),[]⟩⟩

/-- The name of a bucket. snprintf cuts it off at its buffer of 256 bytes, but returns the length of the
whole, and so many bytes are read. -/
def bucketField (resource : Bytes) (i : ℕ) : Except Fault Bytes :=
  let key := resource ++ lit "." ++ decimal i
  if key.length < 256 then .ok key else .error .outOfBounds

def appendBucket (resource : Bytes) (histogram : Fin histogramSize → ℕ) (i : Fin histogramSize) :
    Except Fault (List (Bytes × ℚ)) :=
  if histogram i ≠ 0 then do
    let key ← bucketField resource i
    return [(key,(toInt32 (histogram i) : ℚ))]
  else return []

def histogramsAddHistograms (dbName ns : Bytes) (histogram : Fin histogramSize → ℕ) :
    Except Fault StatsUpdate := do
  let s ← histogramsSelector ns
  let incs ← (List.finRange histogramSize).mapM (appendBucket s.resource histogram)
  return ⟨⟨dbName,.heatmaps,.minute s.page s.minute⟩,⟨incs.flatten,[]⟩⟩

def dropReasonFields : List (FeMsgDropReason × Bytes) :=
  [(.outlier,lit "drop_reasons.outlier"),(.navTiming,lit "drop_reasons.nav_timing"),
    (.illegal,lit "drop_reasons.illegal"),(.corrupted,lit "drop_reasons.corrupted"),
    (.invalid,lit "drop_reasons.invalid")]

def appendReason (stats : UserAgentStats) (reason : FeMsgDropReason × Bytes) : List (Bytes × ℚ) :=
  let count := stats.feDropReasons reason.1
  if count ≠ 0 then [(reason.2,(toInt64 count : ℚ))] else []

def agentsAddAgent (dbName agent : Bytes) (stats : UserAgentStats) : Except Fault StatsUpdate :=
  .ok ⟨⟨dbName,.agents,.agent (safeAgent agent)⟩,
    ⟨[(lit "backend",(toInt64 stats.receivedBackend : ℚ)),(lit "frontend",(toInt64 stats.receivedFrontend : ℚ)),
      (lit "dropped",(toInt64 stats.feDropped : ℚ))] ++ dropReasonFields.flatMap (appendReason stats),[]⟩⟩

/-- What a message to the updaters carries: its type and the hash it points to. -/
inductive UpdateTask (n : ℕ)
  | totals (updates : ZHash (Increments n))
  | minutes (updates : ZHash (Increments n))
  | quants (updates : ZHash (Fin n → ℕ))
  | histograms (updates : ZHash (Fin histogramSize → ℕ))
  | agents (updates : ZHash UserAgentStats)

structure UpdateMsg (n : ℕ) where
  dbName : Bytes
  task : UpdateTask n

/-- The loop over a hash. Its order is left open by the updaters, who may do the updates in any. -/
def updateCollection {V : Type} (updates : ZHash V) (fn : Bytes → V → Except Fault StatsUpdate) :
    List (Except Fault StatsUpdate) := updates.toList.map fun e => fn e.1 e.2

/-- The updates of one message; an entry whose key cannot be decoded brings the process down. -/
def UpdateMsg.updates (res : Resources n) (msg : UpdateMsg n) : List (Except Fault StatsUpdate) :=
  match msg.task with
  | .totals updates => updateCollection updates (totalsAddIncrements res msg.dbName)
  | .minutes updates => updateCollection updates (minutesAddIncrements res msg.dbName)
  | .quants updates => updateCollection updates (quantsAddQuants res msg.dbName)
  | .histograms updates => updateCollection updates (histogramsAddHistograms msg.dbName)
  | .agents updates => updateCollection updates (agentsAddAgent msg.dbName)

def processorMsgs (dbName : Bytes) (proc : Processor n) : List (UpdateMsg n) :=
  [⟨dbName,.totals proc.totals⟩,⟨dbName,.minutes proc.minutes⟩,⟨dbName,.quants proc.quants⟩,
    ⟨dbName,.histograms proc.histograms⟩,⟨dbName,.agents proc.agents⟩]

/-- The messages of forward_updates, in order. -/
def forwardUpdates (traversal : Traversal) (processors : ZHash (Processor n)) : List (UpdateMsg n) :=
  (traversal.keys processors).flatMap fun dbName =>
    match processors[dbName]? with
    | none => []
    | some proc => processorMsgs dbName proc

/-- Two traversals forward the same messages. -/
lemma forwardUpdates_perm (traversal : Traversal) (processors : ZHash (Processor n)) :
    (forwardUpdates traversal processors).Perm (processors.toList.flatMap fun e => processorMsgs e.1 e.2) := by
  refine ((traversal.perm _).flatMap_right _).trans (List.Perm.of_eq ?_)
  rw [← Std.ExtTreeMap.map_fst_toList_eq_keys,List.flatMap_map]
  refine List.flatMap_congr fun e he => ?_
  rw [Std.ExtTreeMap.mem_toList_iff_getElem?_eq_some.mp he]

def runUpdate (database : Database) : Except Fault StatsUpdate → Database
  | .ok w => upsert database w
  | .error _ => database

/-- One update after the other. -/
def runUpdates (database : Database) (updates : List (Except Fault StatsUpdate)) : Database :=
  updates.foldl runUpdate database

lemma runUpdates_append (database : Database) (a b : List (Except Fault StatsUpdate)) :
    runUpdates database (a++b) = runUpdates (runUpdates database a) b := List.foldl_append

/-! Updates commute, since a field is either counted or a maximum. -/

lemma value_applyUpdate_incs (document : Document) (incs : List (Bytes × ℚ)) (f : Bytes) :
    value (applyUpdate document ⟨incs,[]⟩) f = value document f+entriesAt incs f := value_foldl incs document f

lemma maxAt_comm (x y : MetricPair) (stored : Option ℚ) :
    maxAt y (maxAt x stored) = maxAt x (maxAt y stored) := by
  unfold maxAt
  split_ifs
  · cases stored with
    | none => simp [max_comm]
    | some d => simp [max_right_comm]
  · rfl
  · rfl
  · rfl

lemma applyUpdate_comm {a b : Increments n} (ha : a.Sound) (hb : b.Sound) (res : Resources n)
    (document : Document) :
    applyUpdate (applyUpdate document (incrementsToBson res a)) (incrementsToBson res b) =
      applyUpdate (applyUpdate document (incrementsToBson res b)) (incrementsToBson res a) := by
  apply ext_value
  intro f
  by_cases hf : ∃ i,res.intToResourceMax i = f
  · obtain ⟨i,rfl⟩ := hf
    refine (applyUpdate_max hb res _ i).trans (Eq.trans ?_ (applyUpdate_max ha res _ i).symm)
    rw [applyUpdate_max ha,applyUpdate_max hb,maxAt_comm]
  · have hne : ∀ i,res.intToResourceMax i ≠ f := fun i hi => hf ⟨i,hi⟩
    rw [applyUpdate_of_ne res b _ hne,applyUpdate_of_ne res a _ hne,applyUpdate_of_ne res a _ hne,
      applyUpdate_of_ne res b _ hne,add_right_comm]

/-- Totals and minutes get the update of sound increments, the other collections only count. -/
def StatsUpdate.Tidy (res : Resources n) (w : StatsUpdate) : Prop :=
  match w.address.collection with
  | .totals | .minutes => ∃ incs : Increments n,incs.Sound ∧ w.update = incrementsToBson res incs
  | .quants | .heatmaps | .agents => w.update.maxs = []

lemma StatsUpdate.Tidy.comm {res : Resources n} {w w' : StatsUpdate} (h : w.Tidy res) (h' : w'.Tidy res)
    (haddress : w.address = w'.address) (document : Document) :
    applyUpdate (applyUpdate document w.update) w'.update =
      applyUpdate (applyUpdate document w'.update) w.update := by
  have hmetrics : (∃ incs : Increments n,incs.Sound ∧ w.update = incrementsToBson res incs) →
      (∃ incs : Increments n,incs.Sound ∧ w'.update = incrementsToBson res incs) →
      applyUpdate (applyUpdate document w.update) w'.update =
        applyUpdate (applyUpdate document w'.update) w.update := by
    rintro ⟨a,ha,hw⟩ ⟨b,hb,hw'⟩
    rw [hw,hw']
    exact applyUpdate_comm ha hb res document
  have hcounts : w.update.maxs = [] → w'.update.maxs = [] →
      applyUpdate (applyUpdate document w.update) w'.update =
        applyUpdate (applyUpdate document w'.update) w.update := by
    intro hw hw'
    have hincs {u : UpdateDocument} (hu : u.maxs = []) : u = ⟨u.incs,[]⟩ := by rw [← hu]
    rw [hincs hw,hincs hw']
    refine ext_value fun f => ?_
    simp only [value_applyUpdate_incs]
    exact add_right_comm _ _ _
  unfold StatsUpdate.Tidy at h h'
  rw [← haddress] at h'
  cases hcollection : w.address.collection <;> simp only [hcollection] at h h'
  · exact hmetrics h h'
  · exact hmetrics h h'
  · exact hcounts h h'
  · exact hcounts h h'
  · exact hcounts h h'

lemma upsert_comm {w w' : StatsUpdate} (h : w.address = w'.address → ∀ document,
      applyUpdate (applyUpdate document w.update) w'.update =
        applyUpdate (applyUpdate document w'.update) w.update) (database : Database) :
    upsert (upsert database w) w' = upsert (upsert database w') w := by
  by_cases haddress : w.address = w'.address
  · simp only [upsert,haddress,Function.update_self,Option.getD_some,Function.update_idem]
    rw [h haddress]
  · simp only [upsert,Function.update_of_ne haddress,Function.update_of_ne (Ne.symm haddress)]
    exact Function.update_comm haddress _ _ _

/-- An entry that can be decoded gives a tidy update. -/
def TidyResult (res : Resources n) (r : Except Fault StatsUpdate) : Prop := ∀ w,r = .ok w → w.Tidy res

lemma TidyResult.comm {res : Resources n} {r r' : Except Fault StatsUpdate} (h : TidyResult res r)
    (h' : TidyResult res r') (database : Database) :
    runUpdate (runUpdate database r) r' = runUpdate (runUpdate database r') r := by
  cases r with
  | error fault => rfl
  | ok w =>
    cases r' with
    | error fault => rfl
    | ok w' => exact upsert_comm (fun haddress => (h w rfl).comm (h' w' rfl) haddress) database

lemma runUpdates_perm {res : Resources n} {a b : List (Except Fault StatsUpdate)}
    (h : ∀ r ∈ a,TidyResult res r) (hperm : a.Perm b) (database : Database) :
    runUpdates database a = runUpdates database b :=
  hperm.foldl_eq' (fun r hr r' hr' database => (h r hr).comm (h r' hr') database) database

section Tidy
variable (res : Resources n) (dbName key : Bytes)

lemma totalsAddIncrements_tidy {incs : Increments n} (h : incs.Sound) :
    TidyResult res (totalsAddIncrements res dbName key incs) := by
  intro w hw
  obtain rfl := Except.ok.inj hw
  exact ⟨incs,h,rfl⟩

lemma minutesAddIncrements_tidy {incs : Increments n} (h : incs.Sound) :
    TidyResult res (minutesAddIncrements res dbName key incs) := by
  intro w hw
  obtain ⟨s,-,hs⟩ := bind_eq_ok_iff.mp hw
  obtain rfl := Except.ok.inj hs
  exact ⟨incs,h,rfl⟩

lemma quantsAddQuants_tidy (quants : Fin n → ℕ) : TidyResult res (quantsAddQuants res dbName key quants) := by
  intro w hw
  obtain ⟨s,-,hs⟩ := bind_eq_ok_iff.mp hw
  obtain rfl := Except.ok.inj hs
  rfl

lemma histogramsAddHistograms_tidy (histogram : Fin histogramSize → ℕ) :
    TidyResult res (histogramsAddHistograms dbName key histogram) := by
  intro w hw
  obtain ⟨s,-,hs⟩ := bind_eq_ok_iff.mp hw
  obtain ⟨incs,-,hincs⟩ := bind_eq_ok_iff.mp hs
  obtain rfl := Except.ok.inj hincs
  rfl

lemma agentsAddAgent_tidy (stats : UserAgentStats) : TidyResult res (agentsAddAgent dbName key stats) := by
  intro w hw
  obtain rfl := Except.ok.inj hw
  rfl

end Tidy

lemma forall_updateCollection {V : Type} {P : Except Fault StatsUpdate → Prop} {updates : ZHash V}
    {fn : Bytes → V → Except Fault StatsUpdate} (h : ∀ (key : Bytes) v,updates[key]? = some v → P (fn key v)) :
    ∀ r ∈ updateCollection updates fn,P r := by
  intro r hr
  obtain ⟨⟨key,v⟩,he,rfl⟩ := List.mem_map.mp hr
  exact h key v (Std.ExtTreeMap.mem_toList_iff_getElem?_eq_some.mp he)

end Logjam.Importer
