import Logjam.Importer.Updates

/-! The updates of merged aggregates. As long as the counters fit and no metric is negative, updating
with the sum of two hashes leaves the same database as updating with one after the other. -/
namespace Logjam.Importer
open Logjam.Library Logjam.Library.MergeMap

variable {n : ℕ}

/-- No value of a metric was negative: a sum is zero only if all values were. -/
structure Increments.Nonneg (incs : Increments n) : Prop where
  val : ∀ i,0 ≤ (incs.metrics i).val
  valSquared : ∀ i,(incs.metrics i).val = 0 → (incs.metrics i).valSquared = 0

instance (incs : Increments n) : Decidable incs.Nonneg :=
  decidable_of_iff ((∀ i,0 ≤ (incs.metrics i).val) ∧
    ∀ i,(incs.metrics i).val = 0 → (incs.metrics i).valSquared = 0) ⟨fun h => ⟨h.1,h.2⟩,fun h => ⟨h.1,h.2⟩⟩

lemma Increments.Nonneg.add {a b : Increments n} (ha : a.Nonneg) (hb : b.Nonneg) : (a+b).Nonneg where
  val i := add_nonneg (ha.val i) (hb.val i)
  valSquared i h := by
    obtain ⟨hza,hzb⟩ := (add_eq_zero_iff_of_nonneg (ha.val i) (hb.val i)).mp h
    rw [Increments.add_metrics,MetricPair.add_valSquared,ha.valSquared i hza,hb.valSquared i hzb,add_zero]

lemma Increments.Nonneg.signsAgree {a b : Increments n} (ha : a.Nonneg) (hb : b.Nonneg) : SignsAgree a b := by
  intro i
  rcases (ha.val i).lt_or_eq with hpa | hza
  · rcases (hb.val i).lt_or_eq with hpb | hzb
    · exact .inl ⟨hpa,hpb⟩
    · exact .inr (.inr (.inl ⟨hpa,hb.valSquared i hzb.symm⟩))
  · rcases (hb.val i).lt_or_eq with hpb | hzb
    · exact .inr (.inr (.inr ⟨hpb,ha.valSquared i hza.symm⟩))
    · exact .inr (.inl ⟨hza.ge,hzb.ge⟩)

/-- What metrics have to be like for sums to be stored as sums. -/
structure Increments.Mergeable (incs : Increments n) : Prop where
  sound : incs.Sound
  nonneg : incs.Nonneg

lemma Increments.Mergeable.add (a b : Increments n) (ha : a.Mergeable) (hb : b.Mergeable) : (a+b).Mergeable :=
  ⟨ha.sound.add hb.sound,ha.nonneg.add hb.nonneg⟩

lemma CountsFit.of_add_left {a b : Increments n} (h : CountsFit (a+b)) : CountsFit a where
  backend := by
    have hb : a.backendRequestCount+b.backendRequestCount < 2^31 := h.backend
    omega
  frontend := by
    have hf : a.pageRequestCount+b.pageRequestCount+(a.ajaxRequestCount+b.ajaxRequestCount) < 2^31 := h.frontend
    omega
  others := h.left

/-- The counters of an agent fit an int64. -/
structure UserAgentStats.Fits (stats : UserAgentStats) : Prop where
  backend : stats.receivedBackend < 2^63
  frontend : stats.receivedFrontend < 2^63
  dropped : stats.feDropped < 2^63
  reasons : ∀ reason,stats.feDropReasons reason < 2^63

lemma mem_dropReasonFields (reason : FeMsgDropReason) :
    reason ∈ FeMsgDropReason.accepted::dropReasonFields.map Prod.fst := by
  cases reason <;> decide

lemma UserAgentStats.fits_iff (stats : UserAgentStats) :
    (stats.receivedBackend < 2^63 ∧ stats.receivedFrontend < 2^63 ∧ stats.feDropped < 2^63 ∧
      (FeMsgDropReason.accepted::dropReasonFields.map Prod.fst).all (fun reason => stats.feDropReasons reason < 2^63) = true) ↔
      stats.Fits := by
  simp only [List.all_eq_true,decide_eq_true_eq]
  exact ⟨fun h => ⟨h.1,h.2.1,h.2.2.1,fun reason => h.2.2.2 reason (mem_dropReasonFields reason)⟩,
    fun h => ⟨h.1,h.2,h.3,fun reason _ => h.4 reason⟩⟩

instance UserAgentStats.decidableFits (stats : UserAgentStats) : Decidable stats.Fits :=
  decidable_of_iff _ stats.fits_iff

/-- All counters fit the integers they are stored as. -/
structure Processor.Fits (p : Processor n) : Prop where
  totals : AllValues CountsFit p.totals
  minutes : AllValues CountsFit p.minutes
  quants : AllValues (fun row => ∀ i,row i < 2^31) p.quants
  histograms : AllValues (fun row => ∀ i,row i < 2^31) p.histograms
  agents : AllValues UserAgentStats.Fits p.agents

instance Processor.decidableFits (p : Processor n) : Decidable p.Fits :=
  decidable_of_iff (AllValues CountsFit p.totals ∧ AllValues CountsFit p.minutes ∧
    AllValues (fun row => ∀ i,row i < 2^31) p.quants ∧ AllValues (fun row => ∀ i,row i < 2^31) p.histograms ∧
    AllValues UserAgentStats.Fits p.agents)
    ⟨fun h => ⟨h.1,h.2.1,h.2.2.1,h.2.2.2.1,h.2.2.2.2⟩,fun h => ⟨h.1,h.2,h.3,h.4,h.5⟩⟩

/-- All keys can be decoded. -/
structure Processor.Decodable (p : Processor n) : Prop where
  minutes : ∀ key ∈ p.minutes,∃ s,minutesSelector key = .ok s
  quants : ∀ key ∈ p.quants,∃ s,quantsSelector key = .ok s
  histograms : ∀ key ∈ p.histograms,∃ s,histogramsSelector key = .ok s ∧ s.resource.length+3 < 256

structure Processor.Mergeable (p : Processor n) : Prop where
  increments : AllIncrements Increments.Mergeable p
  decodable : p.Decodable

lemma Processor.Decodable.add {p q : Processor n} (hp : p.Decodable) (hq : q.Decodable) : (p+q).Decodable where
  minutes key h := (mem_or_mem_of_mem_add h).elim (hp.minutes key) (hq.minutes key)
  quants key h := (mem_or_mem_of_mem_add h).elim (hp.quants key) (hq.quants key)
  histograms key h := (mem_or_mem_of_mem_add h).elim (hp.histograms key) (hq.histograms key)

lemma AllIncrements.add {P : Increments n → Prop} (hP : ∀ a b,P a → P b → P (a+b)) {p q : Processor n}
    (hp : AllIncrements P p) (hq : AllIncrements P q) : AllIncrements P (p+q) :=
  ⟨hp.totals.add hP hq.totals,hp.minutes.add hP hq.minutes⟩

lemma Processor.Mergeable.add (p q : Processor n) (hp : p.Mergeable) (hq : q.Mergeable) : (p+q).Mergeable :=
  ⟨hp.increments.add Increments.Mergeable.add hq.increments,hp.decodable.add hq.decodable⟩

lemma mem_of_getElem? {V : Type} {m : ZHash V} {key : Bytes} {v : V} (h : m[key]? = some v) : key ∈ m :=
  Std.ExtTreeMap.mem_iff_isSome_getElem?.mpr (h ▸ rfl)

/-! Counters that fit are read off a part of the sum as well. -/

lemma AllValues.of_add_left {V : Type} [AddCommSemigroup V] {P : V → Prop} (hP : ∀ a b,P (a+b) → P a)
    {m₁ m₂ : ZHash V} (h : AllValues P (m₁+m₂)) : AllValues P m₁ := by
  intro key a ha
  have hsum : (m₁+m₂)[key]? = value m₁ key+value m₂ key := value_add m₁ m₂ key
  rw [show value m₁ key = (a : WithZero V) from ha] at hsum
  cases hb : m₂[key]? with
  | none => exact h key a (hsum.trans (by rw [show value m₂ key = 0 from hb,add_zero]; rfl))
  | some b => exact hP a b (h key (a+b) (hsum.trans (by rw [show value m₂ key = (b : WithZero V) from hb]; rfl)))

lemma UserAgentStats.Fits.of_add_left (a b : UserAgentStats) (h : (a+b).Fits) : a.Fits where
  backend := (Nat.le_add_right _ b.receivedBackend).trans_lt h.backend
  frontend := (Nat.le_add_right _ b.receivedFrontend).trans_lt h.frontend
  dropped := (Nat.le_add_right _ b.feDropped).trans_lt h.dropped
  reasons reason := (Nat.le_add_right _ (b.feDropReasons reason)).trans_lt (h.reasons reason)

lemma Processor.Fits.of_add_left (p q : Processor n) (h : (p+q).Fits) : p.Fits where
  totals := AllValues.of_add_left (fun _ _ => CountsFit.of_add_left) h.totals
  minutes := AllValues.of_add_left (fun _ _ => CountsFit.of_add_left) h.minutes
  quants := AllValues.of_add_left (fun _ b h i => (Nat.le_add_right _ (b i)).trans_lt (h i)) h.quants
  histograms := AllValues.of_add_left (fun _ b h i => (Nat.le_add_right _ (b i)).trans_lt (h i)) h.histograms
  agents := AllValues.of_add_left UserAgentStats.Fits.of_add_left h.agents

/-! Entries of the same key. -/

/-- The third update does what the first two do one after the other. -/
def Adds (r r' r'' : Except Fault StatsUpdate) : Prop :=
  ∃ address u v w,r = .ok ⟨address,u⟩ ∧ r' = .ok ⟨address,v⟩ ∧ r'' = .ok ⟨address,w⟩ ∧
    ∀ document,applyUpdate (applyUpdate document u) v = applyUpdate document w

lemma Adds.runUpdate {r r' r'' : Except Fault StatsUpdate} (h : Adds r r' r'') (database : Database) :
    Importer.runUpdate (Importer.runUpdate database r) r' = Importer.runUpdate database r'' := by
  obtain ⟨address,u,v,w,rfl,rfl,rfl,happly⟩ := h
  simp only [Importer.runUpdate,upsert,Function.update_self,Option.getD_some,Function.update_idem,happly]

lemma adds_incs {address : Address} {a b c : List (Bytes × ℚ)}
    (h : ∀ f,entriesAt c f = entriesAt a f+entriesAt b f) :
    Adds (.ok ⟨address,⟨a,[]⟩⟩) (.ok ⟨address,⟨b,[]⟩⟩) (.ok ⟨address,⟨c,[]⟩⟩) := by
  refine ⟨address,_,_,_,rfl,rfl,rfl,fun document => ext_value fun f => ?_⟩
  rw [value_applyUpdate_incs,value_applyUpdate_incs,value_applyUpdate_incs,h f,add_assoc]

section Entries
variable (res : Resources n) (dbName : Bytes) {key : Bytes}

lemma totalsAddIncrements_adds {a b : Increments n} (ha : a.Mergeable) (hb : b.Mergeable)
    (hfit : CountsFit (a+b)) : Adds (totalsAddIncrements res dbName key a)
      (totalsAddIncrements res dbName key b) (totalsAddIncrements res dbName key (a+b)) :=
  ⟨_,_,_,_,rfl,rfl,rfl,applyUpdate_add ha.sound hb.sound (ha.nonneg.signsAgree hb.nonneg) hfit res⟩

lemma minutesAddIncrements_adds (hkey : ∃ s,minutesSelector key = .ok s) {a b : Increments n}
    (ha : a.Mergeable) (hb : b.Mergeable) (hfit : CountsFit (a+b)) :
    Adds (minutesAddIncrements res dbName key a) (minutesAddIncrements res dbName key b)
      (minutesAddIncrements res dbName key (a+b)) := by
  obtain ⟨s,hs⟩ := hkey
  simp only [minutesAddIncrements,hs]
  exact ⟨_,_,_,_,rfl,rfl,rfl,applyUpdate_add ha.sound hb.sound (ha.nonneg.signsAgree hb.nonneg) hfit res⟩

/-- Counters of several fields. -/
lemma entriesAt_counts_add {ι : Type} {l : List ι} {name : ι → Bytes} {a b : ι → ℕ}
    (hfit : ∀ i,a i+b i < 2^31) (f : Bytes) :
    entriesAt (l.flatMap fun i => appendCount (name i) (a i+b i)) f =
      entriesAt (l.flatMap fun i => appendCount (name i) (a i)) f+
        entriesAt (l.flatMap fun i => appendCount (name i) (b i)) f := by
  rw [entriesAt_flatMap,entriesAt_flatMap,entriesAt_flatMap,← List.sum_map_add]
  exact congrArg List.sum (List.map_congr_left fun i _ => entriesAt_appendCount_add (hfit i) f)

lemma quantsAddQuants_adds (hkey : ∃ s,quantsSelector key = .ok s) {a b : Fin n → ℕ}
    (hfit : ∀ i,(a+b) i < 2^31) : Adds (quantsAddQuants res dbName key a)
      (quantsAddQuants res dbName key b) (quantsAddQuants res dbName key (a+b)) := by
  obtain ⟨s,hs⟩ := hkey
  simp only [quantsAddQuants,hs]
  exact adds_incs (entriesAt_counts_add hfit)

lemma length_decimal_histogram : ∀ i : Fin histogramSize,(decimal i).length ≤ 2 := by decide

lemma histogramsAddHistograms_eq {s : HistogramSelector} (hs : histogramsSelector key = .ok s)
    (hshort : s.resource.length+3 < 256) (histogram : Fin histogramSize → ℕ) :
    histogramsAddHistograms dbName key histogram = .ok ⟨⟨dbName,.heatmaps,.minute s.page s.minute⟩,
      ⟨(List.finRange histogramSize).flatMap fun i : Fin histogramSize =>
        appendCount (s.resource ++ lit "." ++ decimal i) (histogram i),[]⟩⟩ := by
  have hbucket : appendBucket s.resource histogram = fun i : Fin histogramSize =>
      pure (appendCount (s.resource ++ lit "." ++ decimal i) (histogram i)) := by
    funext i
    have hlen : (s.resource ++ lit "." ++ decimal i).length < 256 := by
      have hdigits := length_decimal_histogram i
      rw [List.length_append,List.length_append,show (lit ".").length = 1 from rfl]
      omega
    simp only [appendBucket,bucketField,if_pos hlen,appendCount]
    split <;> rfl
  rw [histogramsAddHistograms,hs]
  simp only [bind,Except.bind,hbucket,List.mapM_pure,List.flatMap]
  rfl

lemma histogramsAddHistograms_adds
    (hkey : ∃ s,histogramsSelector key = .ok s ∧ s.resource.length+3 < 256) {a b : Fin histogramSize → ℕ}
    (hfit : ∀ i,(a+b) i < 2^31) : Adds (histogramsAddHistograms dbName key a)
      (histogramsAddHistograms dbName key b) (histogramsAddHistograms dbName key (a+b)) := by
  obtain ⟨s,hs,hshort⟩ := hkey
  rw [histogramsAddHistograms_eq dbName hs hshort,histogramsAddHistograms_eq dbName hs hshort,
    histogramsAddHistograms_eq dbName hs hshort]
  exact adds_incs (entriesAt_counts_add hfit)

lemma toInt64_natCast {count : ℕ} (h : count < 2^63) : toInt64 count = count :=
  toInt64_of_lt (by omega) (by omega)

lemma entriesAt_singleton_add (name : Bytes) {x y : ℕ} (h : x+y < 2^63) (f : Bytes) :
    entriesAt [(name,(toInt64 (x+y : ℕ) : ℚ))] f =
      entriesAt [(name,(toInt64 x : ℚ))] f+entriesAt [(name,(toInt64 y : ℚ))] f := by
  rw [toInt64_natCast h,toInt64_natCast (by omega),toInt64_natCast (by omega)]
  by_cases hname : name = f <;> simp [entriesAt,hname]

lemma entriesAt_appendReason_add {a b : UserAgentStats} {reason : FeMsgDropReason × Bytes}
    (h : (a+b).feDropReasons reason.1 < 2^63) (f : Bytes) :
    entriesAt (appendReason (a+b) reason) f =
      entriesAt (appendReason a reason) f+entriesAt (appendReason b reason) f := by
  have hsum : (a+b).feDropReasons reason.1 = a.feDropReasons reason.1+b.feDropReasons reason.1 := rfl
  rw [hsum] at h
  have hentries := entriesAt_singleton_add reason.2 h f
  simp only [appendReason,hsum]
  by_cases ha : a.feDropReasons reason.1 = 0
  · by_cases hb : b.feDropReasons reason.1 = 0
    · simp [ha,hb,entriesAt]
    · simp [ha,hb,entriesAt]
  · by_cases hb : b.feDropReasons reason.1 = 0
    · simp [ha,hb,entriesAt]
    · simp only [ne_eq,ha,hb,Nat.add_eq_zero_iff,and_self,not_false_eq_true,if_true]
      exact hentries

lemma agentsAddAgent_adds {a b : UserAgentStats} (hfit : (a+b).Fits) :
    Adds (agentsAddAgent dbName key a) (agentsAddAgent dbName key b) (agentsAddAgent dbName key (a+b)) := by
  refine adds_incs fun f => ?_
  have hsplit (x y z : Bytes × ℚ) (l : List (Bytes × ℚ)) : entriesAt ([x,y,z] ++ l) f =
      entriesAt [x] f+(entriesAt [y] f+(entriesAt [z] f+entriesAt l f)) := by
    rw [entriesAt_append,show [x,y,z] = [x] ++ ([y] ++ [z]) from rfl,entriesAt_append,entriesAt_append]
    ac_rfl
  have hreasons : entriesAt (dropReasonFields.flatMap (appendReason (a+b))) f =
      entriesAt (dropReasonFields.flatMap (appendReason a)) f+
        entriesAt (dropReasonFields.flatMap (appendReason b)) f := by
    rw [entriesAt_flatMap,entriesAt_flatMap,entriesAt_flatMap,← List.sum_map_add]
    exact congrArg List.sum (List.map_congr_left fun r _ => entriesAt_appendReason_add (hfit.reasons r.1) f)
  have hbackend := entriesAt_singleton_add (lit "backend") (x := a.receivedBackend) hfit.backend f
  have hfrontend := entriesAt_singleton_add (lit "frontend") (x := a.receivedFrontend) hfit.frontend f
  have hdropped := entriesAt_singleton_add (lit "dropped") (x := a.feDropped) hfit.dropped f
  rw [hsplit,hsplit,hsplit,hreasons]
  change entriesAt [(_,((toInt64 (a.receivedBackend+b.receivedBackend : ℕ) : ℤ) : ℚ))] f+
    (entriesAt [(_,((toInt64 (a.receivedFrontend+b.receivedFrontend : ℕ) : ℤ) : ℚ))] f+
      (entriesAt [(_,((toInt64 (a.feDropped+b.feDropped : ℕ) : ℤ) : ℚ))] f+_)) = _
  rw [hbackend,hfrontend,hdropped]
  ac_rfl

end Entries

/-! Hashes. -/

/-- Updating a collection with a merged hash. -/
lemma runUpdates_add {V : Type} [AddCommSemigroup V] {P : V → Prop} (hP : ∀ a b,P a → P b → P (a+b))
    {res : Resources n} {fn : Bytes → V → Except Fault StatsUpdate}
    (htidy : ∀ key v,P v → TidyResult res (fn key v)) {m₁ m₂ : ZHash V} (h₁ : AllValues P m₁)
    (h₂ : AllValues P m₂)
    (hadds : ∀ (key : Bytes) a b,m₁[key]? = some a → m₂[key]? = some b → (m₁+m₂)[key]? = some (a+b) →
      Adds (fn key a) (fn key b) (fn key (a+b))) (database : Database) :
    runUpdates database (updateCollection (m₁+m₂) fn) =
      runUpdates database (updateCollection m₁ fn ++ updateCollection m₂ fn) := by
  simp only [runUpdates,updateCollection,List.foldl_append,List.foldl_map]
  refine foldl_toList_add (fun s x y hx hy => (htidy x.1 x.2 hx).comm (htidy y.1 y.2 hy) s) hP h₁ h₂ ?_ database
  intro key a b s ha hb
  refine (hadds key a b ha hb ?_).runUpdate s
  have hsum : (m₁+m₂)[key]? = value m₁ key+value m₂ key := value_add m₁ m₂ key
  rw [show value m₁ key = (a : WithZero V) from ha,show value m₂ key = (b : WithZero V) from hb] at hsum
  exact hsum

/-- The same where every update of the collection is tidy. -/
lemma runUpdates_add_of_tidy {V : Type} [AddCommSemigroup V] {res : Resources n}
    {fn : Bytes → V → Except Fault StatsUpdate} (htidy : ∀ key v,TidyResult res (fn key v)) (m₁ m₂ : ZHash V)
    (hadds : ∀ (key : Bytes) a b,m₁[key]? = some a → m₂[key]? = some b → (m₁+m₂)[key]? = some (a+b) →
      Adds (fn key a) (fn key b) (fn key (a+b))) (database : Database) :
    runUpdates database (updateCollection (m₁+m₂) fn) =
      runUpdates database (updateCollection m₁ fn ++ updateCollection m₂ fn) :=
  runUpdates_add (P := fun _ => True) (fun _ _ _ _ => trivial) (fun key v _ => htidy key v) (fun _ _ _ => trivial)
    (fun _ _ _ => trivial) hadds database

section Processors
variable (res : Resources n)

def processorUpdates (dbName : Bytes) (p : Processor n) : List (Except Fault StatsUpdate) :=
  (processorMsgs dbName p).flatMap (UpdateMsg.updates res)

/-- The updates of all messages of forward_updates. -/
def forwardedUpdates (traversal : Traversal) (processors : ZHash (Processor n)) : List (Except Fault StatsUpdate) :=
  (forwardUpdates traversal processors).flatMap (UpdateMsg.updates res)

/-- The same in the order of the keys. -/
def sortedUpdates (processors : ZHash (Processor n)) : List (Except Fault StatsUpdate) :=
  processors.toList.flatMap fun e => processorUpdates res e.1 e.2

lemma processorUpdates_eq (dbName : Bytes) (p : Processor n) : processorUpdates res dbName p =
    updateCollection p.totals (totalsAddIncrements res dbName) ++
      (updateCollection p.minutes (minutesAddIncrements res dbName) ++
        (updateCollection p.quants (quantsAddQuants res dbName) ++
          (updateCollection p.histograms (histogramsAddHistograms dbName) ++
            updateCollection p.agents (agentsAddAgent dbName)))) := by
  simp [processorUpdates,processorMsgs,UpdateMsg.updates]

lemma forwardedUpdates_perm (traversal : Traversal) (processors : ZHash (Processor n)) :
    (forwardedUpdates res traversal processors).Perm (sortedUpdates res processors) := by
  refine ((forwardUpdates_perm traversal processors).flatMap_right _).trans (List.Perm.of_eq ?_)
  rw [List.flatMap_assoc]
  rfl

variable {res}

lemma processorUpdates_tidy {p : Processor n} (h : AllIncrements Increments.Sound p) (dbName : Bytes) :
    ∀ r ∈ processorUpdates res dbName p,TidyResult res r := by
  rw [processorUpdates_eq]
  simp only [List.forall_mem_append]
  refine ⟨?_,?_,?_,?_,?_⟩
  · exact forall_updateCollection fun key incs hv => totalsAddIncrements_tidy res dbName key (h.totals key incs hv)
  · exact forall_updateCollection fun key incs hv => minutesAddIncrements_tidy res dbName key (h.minutes key incs hv)
  · exact forall_updateCollection fun key row _ => quantsAddQuants_tidy res dbName key row
  · exact forall_updateCollection fun key row _ => histogramsAddHistograms_tidy res dbName key row
  · exact forall_updateCollection fun key stats _ => agentsAddAgent_tidy res dbName key stats

lemma Processor.Mergeable.sound {p : Processor n} (h : p.Mergeable) : AllIncrements Increments.Sound p :=
  ⟨fun key incs hv => (h.increments.totals key incs hv).sound,
    fun key incs hv => (h.increments.minutes key incs hv).sound⟩

/-- Two rounds of updates of all five collections, collection by collection. -/
lemma append_perm_zip {α : Type} (t t' m m' q q' h h' a a' : List α) :
    ((t++(m++(q++(h++a))))++(t'++(m'++(q'++(h'++a'))))).Perm
      ((t++t')++((m++m')++((q++q')++((h++h')++(a++a'))))) := by
  rw [← Multiset.coe_eq_coe]
  simp only [← Multiset.coe_add]
  ac_rfl

lemma runUpdates_five (database : Database) (t m q h a : List (Except Fault StatsUpdate)) :
    runUpdates database (t++(m++(q++(h++a)))) =
      runUpdates (runUpdates (runUpdates (runUpdates (runUpdates database t) m) q) h) a := by
  rw [runUpdates_append,runUpdates_append,runUpdates_append,runUpdates_append]

theorem runUpdates_processor_add {p q : Processor n} (hp : p.Mergeable) (hq : q.Mergeable)
    (hfits : (p+q).Fits) (dbName : Bytes) (database : Database) :
    runUpdates database (processorUpdates res dbName (p+q)) =
      runUpdates database (processorUpdates res dbName p ++ processorUpdates res dbName q) := by
  have htidy : ∀ r ∈ processorUpdates res dbName p ++ processorUpdates res dbName q,TidyResult res r :=
    List.forall_mem_append.mpr ⟨processorUpdates_tidy hp.sound dbName,processorUpdates_tidy hq.sound dbName⟩
  have htotals := runUpdates_add Increments.Mergeable.add
    (fun key incs h => totalsAddIncrements_tidy res dbName key h.sound) hp.increments.totals hq.increments.totals
    fun key a b ha hb hab => totalsAddIncrements_adds res dbName (hp.increments.totals key a ha)
      (hq.increments.totals key b hb) (hfits.totals key _ hab)
  have hminutes := runUpdates_add Increments.Mergeable.add
    (fun key incs h => minutesAddIncrements_tidy res dbName key h.sound) hp.increments.minutes hq.increments.minutes
    fun key a b ha hb hab => minutesAddIncrements_adds res dbName (hp.decodable.minutes key (mem_of_getElem? ha))
      (hp.increments.minutes key a ha) (hq.increments.minutes key b hb) (hfits.minutes key _ hab)
  have hquants := runUpdates_add_of_tidy (quantsAddQuants_tidy res dbName) p.quants q.quants
    fun key a b ha hb hab => quantsAddQuants_adds res dbName (hp.decodable.quants key (mem_of_getElem? ha))
      (hfits.quants key _ hab)
  have hhistograms := runUpdates_add_of_tidy (histogramsAddHistograms_tidy res dbName) p.histograms q.histograms
    fun key a b ha hb hab => histogramsAddHistograms_adds dbName
      (hp.decodable.histograms key (mem_of_getElem? ha)) (hfits.histograms key _ hab)
  have hagents := runUpdates_add_of_tidy (agentsAddAgent_tidy res dbName) p.agents q.agents
    fun key a b ha hb hab => agentsAddAgent_adds dbName (hfits.agents key _ hab)
  rw [processorUpdates_eq res dbName p,processorUpdates_eq res dbName q] at htidy ⊢
  rw [runUpdates_perm htidy (append_perm_zip _ _ _ _ _ _ _ _ _ _),runUpdates_five,← htotals,← hminutes,
    ← hquants,← hhistograms,← hagents,processorUpdates_eq,runUpdates_five]
  rfl

/-- What is kept by updating with a merged hash. -/
theorem runUpdates_forwarded_add {a b : ZHash (Processor n)} (ha : AllValues Processor.Mergeable a)
    (hb : AllValues Processor.Mergeable b) (hfits : AllValues Processor.Fits (a+b)) (database : Database) :
    runUpdates database (sortedUpdates res (a+b)) =
      runUpdates database (sortedUpdates res a ++ sortedUpdates res b) := by
  have hact (processors : ZHash (Processor n)) (database : Database) :
      runUpdates database (sortedUpdates res processors) =
        processors.toList.foldl (fun database e => runUpdates database (processorUpdates res e.1 e.2)) database := by
    rw [sortedUpdates,runUpdates,List.foldl_flatMap]
    rfl
  rw [runUpdates_append,hact,hact,hact]
  refine foldl_toList_add (fun s x y hx hy => ?_) Processor.Mergeable.add ha hb ?_ database
  · rw [← runUpdates_append,← runUpdates_append]
    have htidy : ∀ r ∈ processorUpdates res x.1 x.2 ++ processorUpdates res y.1 y.2,TidyResult res r :=
      List.forall_mem_append.mpr ⟨processorUpdates_tidy hx.sound x.1,processorUpdates_tidy hy.sound y.1⟩
    exact runUpdates_perm htidy List.perm_append_comm s
  · intro key p q s hp hq
    have hsum : (a+b)[key]? = value a key+value b key := value_add a b key
    rw [show value a key = (p : WithZero (Processor n)) from hp,
      show value b key = (q : WithZero (Processor n)) from hq] at hsum
    rw [← runUpdates_append]
    exact (runUpdates_processor_add (ha key p hp) (hb key q hq) (hfits key (p+q) hsum) key s).symm

lemma sortedUpdates_zero : sortedUpdates res (0 : ZHash (Processor n)) = [] := by
  have hempty : (0 : ZHash (Processor n)).toList = [] :=
    List.length_eq_zero_iff.mp (Std.ExtTreeMap.length_toList.trans Std.ExtTreeMap.size_empty)
  rw [sortedUpdates,hempty]
  rfl

/-- Several hashes, one after the other. -/
theorem runUpdates_forwarded_sum {hashes : List (ZHash (Processor n))}
    (h : ∀ hash ∈ hashes,AllValues Processor.Mergeable hash) (hfits : AllValues Processor.Fits hashes.sum)
    (database : Database) :
    runUpdates database (hashes.flatMap (sortedUpdates res)) =
      runUpdates database (sortedUpdates res hashes.sum) := by
  induction hashes generalizing database with
  | nil => rw [List.sum_nil,sortedUpdates_zero,List.flatMap_nil]
  | cons hash hashes ih =>
    rw [List.forall_mem_cons] at h
    rw [List.sum_cons] at hfits ⊢
    have hrest : AllValues Processor.Fits hashes.sum :=
      AllValues.of_add_left Processor.Fits.of_add_left (add_comm hash hashes.sum ▸ hfits)
    rw [List.flatMap_cons,runUpdates_append,ih h.2 hrest,← runUpdates_append]
    exact (runUpdates_forwarded_add h.1 (AllValues.sum Processor.Mergeable.add h.2) hfits database).symm

end Processors
end Logjam.Importer
