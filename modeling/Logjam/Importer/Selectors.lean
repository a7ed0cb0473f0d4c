import Logjam.Basic.Decimal
import Logjam.Importer.Processor
import Logjam.Library.Ensures

/-! The keys of the aggregates as the updater reads them. A key is a text that the processor has
composed, and the updater takes it apart to select the document to update. -/
namespace Logjam.Importer
open Logjam.Library

variable {n : ℕ}

structure MinuteSelector where
  page : Bytes
  minute : ℤ
  deriving DecidableEq

structure QuantSelector where
  page : Bytes
  kind : Bytes
  quant : ℤ
  deriving DecidableEq

structure HistogramSelector where
  page : Bytes
  minute : ℤ
  resource : Bytes
  deriving DecidableEq

/-- One step behind the byte a loop has stopped at; behind the terminator there is no string. -/
def skipByte : Bytes → Except Fault Bytes
  | _::rest => .ok rest
  | [] => .error .outOfBounds

/-- The key of minutes_add_increments. The minute is an int, whose overflow C leaves undefined; it is
taken to wrap around. -/
def minutesSelector (key : Bytes) : Except Fault MinuteSelector := do
  let (minute,p) := scanDigits (2^32) 0 key
  let page ← skipByte p
  return ⟨page,toInt32 minute⟩

/-- The key of quants_add_quants. The quant is read as a size_t and stored as an int32. -/
def quantsSelector (key : Bytes) : Except Fault QuantSelector := do
  match key with
  | [] => .error .outOfBounds
  | kind::p =>
    let p ← skipByte p
    let (quant,p) := scanDigits (2^64) 0 p
    let page ← skipByte p
    return ⟨page,[kind],toInt32 quant⟩

/-- The loop that copies the resource; it only ends at a dash. -/
def scanResource : Bytes → Except Fault (Bytes × Bytes)
  | [] => .error .outOfBounds
  | c::s => if c ≠ 45 then (scanResource s).map fun r => (c::r.1,r.2) else .ok ([],c::s)

/-- The key of histograms_add_histograms, with a buffer of 256 bytes for the resource. -/
def histogramsSelector (key : Bytes) : Except Fault HistogramSelector := do
  let (minute,p) := scanDigits (2^64) 0 key
  let p ← skipByte p
  let (resource,p) ← scanResource p
  if 256 ≤ resource.length then .error .bufferOverflow
  else
    let page ← skipByte p
    return ⟨page,toInt32 minute,resource⟩

/-! Minutes and histograms. -/

/-- A minute and a namespace whose key fits the buffer. -/
@[ext] structure MinutesEntry where
  ns : Bytes
  minute : ℤ
  nonneg : 0 ≤ minute
  lt : minute < 2^31
  short : (decimal (sizeOfInt minute) ++ lit "-" ++ ns).length < 2000

/-- A minute, a resource and a namespace whose key fits the buffer. -/
@[ext] structure HistogramEntry where
  ns : Bytes
  minute : ℤ
  resource : Bytes
  nonneg : 0 ≤ minute
  lt : minute < 2^31
  dash : 45 ∉ resource
  resource_short : resource.length < 256
  short : (decimalInt minute ++ lit "-" ++ resource ++ lit "-" ++ ns).length < 2000

def MinutesEntry.key (e : MinutesEntry) : Bytes := minutesKey e.ns e.minute

def HistogramEntry.key (e : HistogramEntry) : Bytes := histogramKey e.ns e.minute e.resource

lemma snprintf_of_short {text : Bytes} (h : text.length < 2000) : snprintf 2000 text = text :=
  List.take_of_length_le (by omega)

lemma toInt32_toNat {minute : ℤ} (h : 0 ≤ minute) (hlt : minute < 2^31) : toInt32 minute.toNat = minute := by
  rw [toInt32_of_lt (by omega)]
  omega

theorem minutesSelector_key (e : MinutesEntry) : minutesSelector e.key = .ok ⟨e.ns,e.minute⟩ := by
  have hnonneg := e.nonneg
  have hlt := e.lt
  have hsize : sizeOfInt e.minute = e.minute.toNat := sizeOfInt_of_nonneg hnonneg (by omega)
  rw [MinutesEntry.key,minutesKey,snprintf_of_short e.short,minutesSelector,List.append_assoc,hsize,
    scanDigits_decimal (by omega),scanDigits_dash]
  simp only [toInt32_toNat hnonneg hlt]
  rfl

/-- The loop copies everything before the first dash. -/
lemma scanResource_append {resource : Bytes} (h : 45 ∉ resource) (rest : Bytes) :
    scanResource (resource ++ (lit "-" ++ rest)) = .ok (resource,lit "-" ++ rest) := by
  induction resource with
  | nil => rfl
  | cons c resource ih =>
    have hc : c ≠ 45 := fun heq => h (heq ▸ List.mem_cons_self)
    have hresource : 45 ∉ resource := fun hmem => h (List.mem_cons_of_mem _ hmem)
    rw [List.cons_append,scanResource,if_pos hc,ih hresource]
    rfl

theorem histogramsSelector_key (e : HistogramEntry) :
    histogramsSelector e.key = .ok ⟨e.ns,e.minute,e.resource⟩ := by
  have hnonneg := e.nonneg
  have hlt := e.lt
  have htext : decimalInt e.minute ++ lit "-" ++ e.resource ++ lit "-" ++ e.ns =
      decimal e.minute.toNat ++ (lit "-" ++ (e.resource ++ (lit "-" ++ e.ns))) := by
    rw [decimalInt_of_nonneg hnonneg]
    simp only [List.append_assoc]
  rw [HistogramEntry.key,histogramKey,snprintf_of_short e.short,htext,histogramsSelector,
    scanDigits_decimal (by omega),scanDigits_dash]
  have hskip (rest : Bytes) : skipByte (lit "-" ++ rest) = .ok rest := rfl
  simp only [hskip,bind,Except.bind,scanResource_append e.dash,if_neg (not_le.mpr e.resource_short),
    toInt32_toNat hnonneg hlt]
  rfl

/-- What the updater reads from a key is what the processor has composed it from, so that different
entries have different keys. -/
theorem selectors_of_keys :
    (∀ e : MinutesEntry, minutesSelector e.key = .ok ⟨e.ns,e.minute⟩) ∧
      Function.Injective MinutesEntry.key ∧
      (∀ e : HistogramEntry, histogramsSelector e.key = .ok ⟨e.ns,e.minute,e.resource⟩) ∧
      Function.Injective HistogramEntry.key := by
  refine ⟨minutesSelector_key,?_,histogramsSelector_key,?_⟩
  · intro e e' h
    have hsel := (minutesSelector_key e).symm.trans (h ▸ minutesSelector_key e')
    simp only [Except.ok.injEq,MinuteSelector.mk.injEq] at hsel
    exact MinutesEntry.ext hsel.1 hsel.2
  · intro e e' h
    have hsel := (histogramsSelector_key e).symm.trans (h ▸ histogramsSelector_key e')
    simp only [Except.ok.injEq,HistogramSelector.mk.injEq] at hsel
    exact HistogramEntry.ext hsel.1 hsel.2.1 hsel.2.2

def namedEntry : HistogramEntry :=
  ⟨lit "::Shop-2#show",17,lit "total_time",by decide,by decide,by decide,by decide,by decide⟩

/-- A page name with digits and dashes. -/
theorem selectors_of_keys_named :
    namedEntry.key = lit "17-total_time-::Shop-2#show" ∧
      histogramsSelector namedEntry.key = .ok ⟨lit "::Shop-2#show",17,lit "total_time"⟩ :=
  ⟨by decide +kernel,selectors_of_keys.2.2.1 namedEntry⟩

/-! Quants. -/

lemma getD_findBucketIndexFrom_mem {bs : List ℕ} (h : bs ≠ []) (value : ℚ) :
    bs.getD (findBucketIndexFrom bs value) 0 ∈ bs := by
  have hlt := findBucketIndexFrom_lt bs value h
  rw [List.getD_eq_getElem bs 0 hlt]
  exact List.getElem_mem hlt

/-- In a sorted table the scan finds the least bound that is large enough. -/
lemma getD_findBucketIndexFrom_le_iff {bs : List ℕ} (hsorted : bs.Pairwise (· < ·)) {b : ℕ}
    (hb : b ∈ bs.dropLast) (value : ℚ) :
    bs.getD (findBucketIndexFrom bs value) 0 ≤ b ↔ value ≤ b := by
  induction bs with
  | nil => simp at hb
  | cons x rest ih =>
    cases rest with
    | nil => simp at hb
    | cons y rest =>
      have hbelow : ∀ z ∈ y::rest,x < z := fun _ hz => List.rel_of_pairwise_cons hsorted hz
      rw [findBucketIndexFrom]
      by_cases hx : (x : ℚ) < value
      -- the bound is passed over, and all later ones are larger
      · rw [if_pos hx,List.getD_cons_succ]
        rcases List.mem_cons.mp (List.dropLast_cons_cons ▸ hb) with rfl | hrest
        · have hmem := getD_findBucketIndexFrom_mem (List.cons_ne_nil y rest) value
          exact iff_of_false (not_le.mpr (hbelow _ hmem)) (not_le.mpr hx)
        · exact ih hsorted.of_cons hrest
      · have hxb : x ≤ b := by
          rcases List.mem_cons.mp (List.dropLast_subset _ hb) with rfl | hrest
          · exact le_rfl
          · exact (hbelow b hrest).le
        rw [if_neg hx,List.getD_cons_zero]
        exact iff_of_true hxb ((not_lt.mp hx).trans (by exact_mod_cast hxb))

lemma findBucket_mem (value : ℚ) : findBucket value ∈ buckets :=
  getD_findBucketIndexFrom_mem (by decide) value

lemma findBucket_le_iff {b : ℕ} (hb : b ∈ buckets.dropLast) (value : ℚ) :
    findBucket value ≤ b ↔ value ≤ b :=
  getD_findBucketIndexFrom_le_iff (by decide) hb value

/-- A positive value of a quantised resource, counted for a namespace under a key that fits the
buffer. -/
structure QuantEntry (res : Resources n) where
  ns : Bytes
  resource : Fin n
  value : ℚ
  kind : UInt8
  scale : ℕ
  positive : 0 < value
  quantised : quantKind res resource = some (kind,scale)
  short : (kind::lit "-" ++ decimal (findBucket (value/scale)*scale) ++ lit "-" ++ ns).length < 2000

namespace QuantEntry

variable {res : Resources n}

/-- The bound of the bucket in which the value is counted. -/
def bucket (e : QuantEntry res) : ℕ := findBucket (e.value/e.scale)*e.scale

def key (e : QuantEntry res) : Bytes := e.kind::lit "-" ++ decimal e.bucket ++ lit "-" ++ e.ns

/-- What the updater should select. -/
def selector (e : QuantEntry res) : QuantSelector := ⟨e.ns,[e.kind],e.bucket⟩

/-- Only allocated bytes are counted in other units. -/
lemma scale_eq (e : QuantEntry res) : e.scale = 1 ∨ e.scale = 1024 := by
  have h := e.quantised
  unfold quantKind at h
  grind

/-- The bounds with which keys are composed. -/
def bounds : List ℕ := buckets ++ buckets.map (·*1024)

lemma bucket_mem (e : QuantEntry res) : e.bucket ∈ bounds := by
  have hmem := findBucket_mem (e.value/e.scale)
  rw [bucket,bounds]
  rcases e.scale_eq with h | h
  · rw [h] at hmem ⊢
    exact List.mem_append_left _ (by simpa using hmem)
  · rw [h] at hmem ⊢
    exact List.mem_append_right _ (List.mem_map_of_mem hmem)

lemma lt_of_mem_bounds : ∀ b ∈ bounds,b < 2^64 := by decide

/-- No two bounds are the same 32 bits. -/
lemma toInt32_bounds : ∀ b ∈ bounds,∀ b' ∈ bounds,toInt32 b = toInt32 b' → b = b' := by
  decide +kernel

theorem quantsSelector_key (e : QuantEntry res) :
    quantsSelector e.key = .ok ⟨e.ns,[e.kind],toInt32 e.bucket⟩ := by
  have htext : e.key = e.kind::(lit "-" ++ (decimal e.bucket ++ (lit "-" ++ e.ns))) := by
    rw [key]
    simp only [List.append_assoc,List.cons_append]
  have hskip (rest : Bytes) : skipByte (lit "-" ++ rest) = .ok rest := rfl
  rw [htext,quantsSelector]
  simp only [hskip,bind,Except.bind,scanDigits_decimal (lt_of_mem_bounds _ e.bucket_mem),scanDigits_dash]
  rfl

/-- The largest value whose bucket is an int32. -/
def largest (e : QuantEntry res) : ℚ := if e.scale = 1 then 10^9 else 1024*10^6

lemma findBucket_mul_lt_iff {b scale : ℕ} (hb : b ∈ buckets.dropLast) (hscale : 0 < scale)
    (hlast : ∀ x ∈ buckets,x*scale < 2^31 ↔ x ≤ b) (value : ℚ) :
    findBucket (value/scale)*scale < 2^31 ↔ value ≤ b*scale := by
  rw [hlast _ (findBucket_mem _),findBucket_le_iff hb,div_le_iff₀ (by exact_mod_cast hscale)]

lemma bucket_lt_iff (e : QuantEntry res) : e.bucket < 2^31 ↔ e.value ≤ e.largest := by
  rw [bucket,largest]
  rcases e.scale_eq with h | h
  · rw [h,findBucket_mul_lt_iff (b := 10^9) (by decide) (by decide) (by decide)]
    norm_num
  · rw [h,findBucket_mul_lt_iff (b := 10^6) (by decide) (by decide) (by decide)]
    norm_num

lemma toInt32_eq_iff {m : ℕ} : toInt32 m = m ↔ m < 2^31 := by
  refine ⟨?_,toInt32_of_lt⟩
  rw [toInt32]
  split <;> omega

end QuantEntry

/-- The updater reads page and kind as they were, and the bound of the bucket as long as it is an
int32; a larger one is cut down to 32 bits. Different buckets have different documents in any case. -/
theorem quantsSelector_key_iff (res : Resources n) :
    (∀ e : QuantEntry res,quantsSelector e.key = .ok e.selector ↔ e.value ≤ e.largest) ∧
      (∀ e : QuantEntry res,∃ quant,quantsSelector e.key = .ok { e.selector with quant := quant }) ∧
      (∀ e e' : QuantEntry res,quantsSelector e.key = quantsSelector e'.key → e.selector = e'.selector) := by
  refine ⟨fun e => ?_,fun e => ⟨_,e.quantsSelector_key⟩,fun e e' h => ?_⟩
  · rw [e.quantsSelector_key,QuantEntry.selector,← e.bucket_lt_iff,← QuantEntry.toInt32_eq_iff]
    simp only [Except.ok.injEq,QuantSelector.mk.injEq,true_and]
  · rw [e.quantsSelector_key,e'.quantsSelector_key] at h
    simp only [Except.ok.injEq,QuantSelector.mk.injEq] at h
    have hbucket := QuantEntry.toInt32_bounds _ e.bucket_mem _ e'.bucket_mem h.2.2
    rw [QuantEntry.selector,QuantEntry.selector,h.1,h.2.1,hbucket]

/-- Two billion allocated bytes. -/
def largeEntry : QuantEntry sampleResources where
  ns := lit "::Shop#show"
  resource := sampleResources.allocatedBytesIndex
  value := 2000000000
  kind := 109
  scale := 1024
  positive := by decide
  quantised := by decide
  short := by decide +kernel

/-- They are counted below 3072000000, and stored below a negative number. -/
theorem quantsSelector_largeEntry :
    largeEntry.key = lit "m-3072000000-::Shop#show" ∧ largeEntry.bucket = 3072000000 ∧
      quantsSelector largeEntry.key = .ok ⟨lit "::Shop#show",lit "m",-1222967296⟩ ∧
      quantsSelector largeEntry.key ≠ .ok largeEntry.selector := by
  decide +kernel

lemma addQuant_keys {res : Resources n} {i : Fin n} {kind : UInt8} {scale : ℕ}
    (hkind : quantKind res i = some (kind,scale)) {value : ℚ} (hvalue : 0 < value) (ns : Bytes)
    (quants : ZHash (Fin n → ℕ)) :
    Ensures (addQuant ns i kind (findBucket (value/scale)*scale) quants) fun quants' =>
      ∀ key ∈ quants',key ∈ quants ∨
        ∃ e : QuantEntry res,e.ns = ns ∧ e.resource = i ∧ e.value = value ∧ e.key = key := by
  refine Ensures.bind (fun _ h => h) fun text htext => Ensures.ok fun key hkey => ?_
  rw [sprintf,ite_eq_iff] at htext
  obtain ⟨hshort,htext⟩ | ⟨_,htext⟩ := htext
  · rcases Std.ExtTreeMap.mem_insert.mp hkey with heq | hstored
    · have hkey : text = key := Std.compare_eq_iff_eq.mp heq
      exact .inr ⟨⟨ns,i,value,kind,scale,hvalue,hkind,hshort⟩,rfl,rfl,rfl,
        (Except.ok.inj htext).trans hkey⟩
    · exact .inl hstored
  · cases htext

/-- Every row that processing adds is the row of such an entry. -/
theorem processorAddQuants_keys (res : Resources n) (self : Processor n) (ns : Bytes) (incs : Increments n) :
    Ensures (processorAddQuants res self ns incs) fun p => ∀ key ∈ p.quants,key ∈ self.quants ∨
      ∃ e : QuantEntry res,(e.ns = ns ∨ e.ns = lit "all_pages") ∧
        e.value = (incs.metrics e.resource).val ∧ e.key = key := by
  refine Ensures.foldlM (fun p hp i _ => ?_) fun key hkey => .inl hkey
  refine Ensures.ite (fun hpos => ?_) fun _ => Ensures.ok hp
  cases hkind : quantKind res i with
  | none => exact Ensures.ok hp
  | some k =>
    refine (addQuant_keys hkind hpos ns p.quants).bind fun quants hpage => ?_
    refine (addQuant_keys hkind hpos (lit "all_pages") quants).bind fun quants' hall => ?_
    refine Ensures.ok fun key hkey => ?_
    rcases hall key hkey with hstored | ⟨e,hns,hresource,hvalue,he⟩
    · rcases hpage key hstored with hstored | ⟨e,hns,hresource,hvalue,he⟩
      · exact hp key hstored
      · exact .inr ⟨e,.inl hns,hresource ▸ hvalue,he⟩
    · exact .inr ⟨e,.inr hns,hresource ▸ hvalue,he⟩

end Logjam.Importer
