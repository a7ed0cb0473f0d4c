import Logjam.Importer.Processor
import Logjam.Library.Ensures

/-! How the configured metrics get their numbers. The groups are read one after the other and share the counter of
the numbers; the last number of a group is remembered in its offset. -/
namespace Logjam.Importer
open Library

def maxResourceCount : ℕ := 100

inductive ResourceType
  | time
  | call
  | memory
  | heap
  | frontend
  | dom
  deriving DecidableEq

/-- In the order of setup_resource_maps. -/
def ResourceType.all : List ResourceType := [.time,.call,.memory,.heap,.frontend,.dom]

/-- The globals of one group. -/
structure TypeMap where
  resources : ℕ → Option Bytes
  lastIndex : ℕ
  lastOffset : ℕ

structure ResourceMaps where
  resourceToInt : ZHash ℕ
  intToResource : ℕ → Option Bytes
  intToResourceSq : ℕ → Option Bytes
  intToResourceMax : ℕ → Option Bytes
  lastResourceOffset : ℕ
  types : ResourceType → TypeMap
  otherTimeResources : List Bytes

/-- The globals before the configuration is read. -/
def ResourceMaps.initial : ResourceMaps where
  resourceToInt := ∅
  intToResource := fun _ => none
  intToResourceSq := fun _ => none
  intToResourceMax := fun _ => none
  lastResourceOffset := 0
  types := fun _ => ⟨fun _ => none,0,0⟩
  otherTimeResources := []

/-- The names with a suffix are composed in buffers of this size. -/
def resourceBufferSize : ℕ := 256

/-- One round of the loop over the metrics of a group. A name that is already known keeps its number. -/
def addResource (type : ResourceType) (maps : ResourceMaps) (resource : Bytes) : Except Fault ResourceMaps := do
  let sq ← sprintf resourceBufferSize (resource ++ lit "_sq")
  let max ← sprintf resourceBufferSize (resource ++ lit "_max")
  let offset := maps.lastResourceOffset
  let typeMap := maps.types type
  if offset+1 < maxResourceCount then
    return { maps with
      resourceToInt := maps.resourceToInt.insertIfNew resource offset
      intToResource := Function.update maps.intToResource offset (some resource)
      intToResourceSq := Function.update maps.intToResourceSq offset (some sq)
      intToResourceMax := Function.update maps.intToResourceMax offset (some max)
      lastResourceOffset := offset+1
      types := Function.update maps.types type { typeMap with
        resources := Function.update typeMap.resources typeMap.lastIndex (some resource)
        lastIndex := typeMap.lastIndex+1 } }
  else .error .assertFailed

def isOtherTime (resource : Bytes) : Bool :=
  resource != lit "total_time" && resource != lit "gc_time" && resource != lit "other_time"

/-- The counter of the group points behind its last metric before this. -/
def closeType (maps : ResourceMaps) (type : ResourceType) : ResourceMaps :=
  let typeMap := maps.types type
  let lastIndex := typeMap.lastIndex-1
  { maps with
    types := Function.update maps.types type
      { typeMap with lastIndex := lastIndex, lastOffset := maps.lastResourceOffset-1 }
    otherTimeResources :=
      if type = .time then ((List.range (lastIndex+1)).filterMap typeMap.resources).filter isOtherTime
      else maps.otherTimeResources }

/-- A group that is missing or empty fails an assertion. -/
def addResourcesOfType (metrics : ResourceType → List Bytes) (maps : ResourceMaps) (type : ResourceType) :
    Except Fault ResourceMaps :=
  if metrics type = [] then .error .assertFailed
  else do
    let maps ← (metrics type).foldlM (addResource type) maps
    return closeType maps type

/-- The counter of the numbers turns into the last one. -/
def ResourceMaps.close (maps : ResourceMaps) : ResourceMaps :=
  { maps with lastResourceOffset := maps.lastResourceOffset-1 }

def setupResourceMaps (metrics : ResourceType → List Bytes) : Except Fault ResourceMaps := do
  let maps ← ResourceType.all.foldlM (addResourcesOfType metrics) ResourceMaps.initial
  return maps.close

/-- Zero is stored as NULL, which is also what a name that is not found gives. -/
def r2i (maps : ResourceMaps) (resource : Bytes) : ℕ := maps.resourceToInt.getD resource 0

def i2r (maps : ResourceMaps) (i : ℕ) : Except Fault (Option Bytes) :=
  if i ≤ maps.lastResourceOffset then .ok (maps.intToResource i) else .error .assertFailed

/-! One group. -/

section Groups
variable {metrics : ResourceType → List Bytes} {maps : ResourceMaps} {type : ResourceType} {done : List Bytes}
  {resource : Bytes} {resources : List Bytes}

/-- The maps number the metrics that have been read. -/
structure Filled (maps : ResourceMaps) (done : List Bytes) : Prop where
  offset : maps.lastResourceOffset = done.length
  intToResource : ∀ i, maps.intToResource i = done[i]?
  intToResourceSq : ∀ i, maps.intToResourceSq i = done[i]?.map (· ++ lit "_sq")
  intToResourceMax : ∀ i, maps.intToResourceMax i = done[i]?.map (· ++ lit "_max")
  resourceToInt : ∀ name, maps.resourceToInt[name]? = if name ∈ done then some (done.idxOf name) else none

/-- Both suffixes fit the buffers. -/
def Fits (resource : Bytes) : Prop := resource.length ≤ 251

lemma filled_initial : Filled .initial [] where
  offset := rfl
  intToResource := fun _ => rfl
  intToResourceSq := fun _ => rfl
  intToResourceMax := fun _ => rfl
  resourceToInt := by
    intro name
    rw [if_neg List.not_mem_nil]
    exact Std.ExtTreeMap.getElem?_empty

/-- Writing behind the end of what is there appends to it. -/
lemma update_getElem {α β : Type} (f : α → β) (l : List α) (a : α) {array : ℕ → Option β} (h : ∀ i, array i = l[i]?.map f)
    (i : ℕ) : Function.update array l.length (some (f a)) i = (l ++ [a])[i]?.map f := by
  obtain hlt | rfl | hgt := Nat.lt_trichotomy i l.length
  · rw [Function.update_of_ne hlt.ne,h,List.getElem?_append_left hlt]
  · rw [Function.update_self,List.getElem?_concat_length,Option.map_some]
  · rw [Function.update_of_ne hgt.ne',h,List.getElem?_eq_none hgt.le,
      List.getElem?_eq_none (by rw [List.length_append,List.length_singleton]; omega)]

lemma Filled.add (h : Filled maps done) (hfits : Fits resource) (hcount : done.length+1 < maxResourceCount) :
    ∃ maps', addResource type maps resource = .ok maps' ∧ Filled maps' (done ++ [resource]) ∧
      maps'.otherTimeResources = maps.otherTimeResources ∧
      maps'.types = Function.update maps.types type { maps.types type with
        resources := Function.update (maps.types type).resources (maps.types type).lastIndex (some resource)
        lastIndex := (maps.types type).lastIndex+1 } := by
  unfold Fits at hfits
  have hsq : sprintf resourceBufferSize (resource ++ lit "_sq") = .ok (resource ++ lit "_sq") :=
    if_pos (by rw [List.length_append]; exact Nat.lt_of_le_of_lt (Nat.add_le_add_right hfits 3) (by decide))
  have hmax : sprintf resourceBufferSize (resource ++ lit "_max") = .ok (resource ++ lit "_max") :=
    if_pos (by rw [List.length_append]; exact Nat.lt_of_le_of_lt (Nat.add_le_add_right hfits 4) (by decide))
  refine ⟨_,bind_eq_ok_iff.mpr ⟨_,hsq,bind_eq_ok_iff.mpr ⟨_,hmax,if_pos (h.offset ▸ hcount)⟩⟩,?_,rfl,rfl⟩
  rw [h.offset]
  constructor
  · rw [List.length_append,List.length_singleton]
  · intro i
    simpa using update_getElem id done resource (by simpa using h.intToResource) i
  · exact update_getElem (· ++ lit "_sq") done resource h.intToResourceSq
  · exact update_getElem (· ++ lit "_max") done resource h.intToResourceMax
  · intro name
    have hknown : resource ∈ maps.resourceToInt ↔ resource ∈ done := by
      rw [Std.ExtTreeMap.mem_iff_isSome_getElem?,h.resourceToInt]
      split_ifs with hmem
      · exact iff_of_true rfl hmem
      · exact iff_of_false (by decide) hmem
    rw [Std.ExtTreeMap.getElem?_insertIfNew,h.resourceToInt]
    by_cases hmem : name ∈ done
    · rw [if_neg,if_pos hmem,if_pos (List.mem_append_left _ hmem),List.idxOf_append_of_mem hmem]
      rintro ⟨heq,hnew⟩
      exact hnew (hknown.mpr (Std.LawfulEqCmp.eq_of_compare heq ▸ hmem))
    · by_cases heq : resource = name
      · subst heq
        rw [if_pos ⟨Std.ReflCmp.compare_self,mt hknown.mp hmem⟩,if_pos (by simp),List.idxOf_append_of_notMem hmem,
          List.idxOf_cons_self,Nat.add_zero]
      · rw [if_neg fun hnew => heq (Std.LawfulEqCmp.eq_of_compare hnew.1),if_neg hmem,if_neg]
        rw [List.mem_append,List.mem_singleton]
        exact not_or.mpr ⟨hmem,Ne.symm heq⟩

/-- The metrics of a group are numbered on from those of the groups before, and listed in its own map. -/
lemma Filled.addAll (h : Filled maps done) (hfits : ∀ resource ∈ resources,Fits resource)
    (hcount : (done ++ resources).length < maxResourceCount) {listed : List Bytes}
    (hindex : (maps.types type).lastIndex = listed.length)
    (hlisted : ∀ i, (maps.types type).resources i = listed[i]?) :
    ∃ maps', resources.foldlM (addResource type) maps = .ok maps' ∧ Filled maps' (done ++ resources) ∧
      maps'.otherTimeResources = maps.otherTimeResources ∧ (∀ other ≠ type,maps'.types other = maps.types other) ∧
      (maps'.types type).lastIndex = (listed ++ resources).length ∧
      ∀ i, (maps'.types type).resources i = (listed ++ resources)[i]? := by
  induction resources generalizing maps done listed with
  | nil => exact ⟨maps,rfl,by rwa [List.append_nil],rfl,fun _ _ => rfl,by rwa [List.append_nil],by rwa [List.append_nil]⟩
  | cons resource resources ih =>
    rw [List.append_cons] at hcount
    have hroom : done.length+1 < maxResourceCount := by
      simp only [List.length_append,List.length_singleton] at hcount
      omega
    obtain ⟨maps₁,hadd,hfilled,hother,htypes⟩ := h.add (hfits resource List.mem_cons_self) hroom
    have hindex₁ : (maps₁.types type).lastIndex = (listed ++ [resource]).length := by
      rw [htypes,Function.update_self,hindex,List.length_append,List.length_singleton]
    have hlisted₁ : ∀ i, (maps₁.types type).resources i = (listed ++ [resource])[i]? := by
      intro i
      rw [htypes,Function.update_self,hindex]
      simpa using update_getElem id listed resource (by simpa using hlisted) i
    obtain ⟨maps',hrun,hfilled',hother',hsame,hindex',hlisted'⟩ :=
      ih hfilled (fun r hr => hfits r (List.mem_cons_of_mem _ hr)) hcount hindex₁ hlisted₁
    rw [List.append_cons listed]
    rw [List.append_cons done]
    refine ⟨maps',?_,hfilled',hother'.trans hother,?_,hindex',hlisted'⟩
    · rw [List.foldlM_cons]
      exact bind_eq_ok_iff.mpr ⟨maps₁,hadd,hrun⟩
    · intro other hne
      rw [hsame other hne,htypes,Function.update_of_ne hne]

lemma fits_of_addResource {maps' : ResourceMaps} (h : addResource type maps resource = .ok maps') : Fits resource := by
  obtain ⟨sq,-,h⟩ := bind_eq_ok_iff.mp h
  obtain ⟨max,hmax,-⟩ := bind_eq_ok_iff.mp h
  unfold sprintf at hmax
  split_ifs at hmax with hlt
  rw [List.length_append] at hlt
  have hsuffix : (lit "_max").length = 4 := rfl
  have hsize : resourceBufferSize = 256 := rfl
  unfold Fits
  omega

/-- A group that has been read, after the metrics of those before it. -/
structure Listed (metrics : ResourceType → List Bytes) (typeMap : TypeMap) (type : ResourceType) (before : List Bytes) :
    Prop where
  lastOffset : typeMap.lastOffset+1 = (before ++ metrics type).length
  lastIndex : typeMap.lastIndex+1 = (metrics type).length
  resources : ∀ i, typeMap.resources i = (metrics type)[i]?

lemma filterMap_range_getElem (l : List Bytes) : (List.range l.length).filterMap (fun i => l[i]?) = l := by
  induction l using List.reverseRecOn with
  | nil => rfl
  | append_singleton l a ih =>
    rw [List.length_append,List.length_singleton,List.range_succ,List.filterMap_append]
    have hinit : (List.range l.length).filterMap (fun i => (l ++ [a])[i]?) =
        (List.range l.length).filterMap (fun i => l[i]?) := by
      refine List.filterMap_congr ?_
      intro i hi
      rw [List.getElem?_append_left (List.mem_range.mp hi)]
    rw [hinit,ih]
    simp

lemma types_closeType : (closeType maps type).types = Function.update maps.types type
    { maps.types type with
      lastIndex := (maps.types type).lastIndex-1
      lastOffset := maps.lastResourceOffset-1 } := rfl

lemma Filled.addType (h : Filled maps done) (hne : metrics type ≠ []) (hfits : ∀ resource ∈ metrics type,Fits resource)
    (hcount : (done ++ metrics type).length < maxResourceCount) (hinitial : maps.types type = ResourceMaps.initial.types type) :
    ∃ maps', addResourcesOfType metrics maps type = .ok maps' ∧ Filled maps' (done ++ metrics type) ∧
      (∀ other ≠ type,maps'.types other = maps.types other) ∧ Listed metrics (maps'.types type) type done ∧
      maps'.otherTimeResources =
        if type = .time then (metrics type).filter isOtherTime else maps.otherTimeResources := by
  have hindex : (maps.types type).lastIndex = ([] : List Bytes).length := by rw [hinitial]; rfl
  have hlisted : ∀ i, (maps.types type).resources i = ([] : List Bytes)[i]? := by
    intro i
    rw [hinitial]
    rfl
  obtain ⟨maps₁,hrun,hfilled,hother,hsame,hindex₁,hlisted₁⟩ := h.addAll hfits hcount hindex hlisted
  rw [List.nil_append] at hindex₁ hlisted₁
  have hpos : 0 < (metrics type).length := List.length_pos_iff.mpr hne
  refine ⟨closeType maps₁ type,?_,⟨hfilled.offset,hfilled.intToResource,hfilled.intToResourceSq,
    hfilled.intToResourceMax,hfilled.resourceToInt⟩,?_,?_,?_⟩
  · rw [addResourcesOfType,if_neg hne]
    exact bind_eq_ok_iff.mpr ⟨maps₁,hrun,rfl⟩
  · intro other hothers
    rw [types_closeType,Function.update_of_ne hothers,hsame other hothers]
  · rw [types_closeType,Function.update_self]
    refine ⟨?_,?_,hlisted₁⟩
    · dsimp only
      rw [hfilled.offset,List.length_append]
      omega
    · dsimp only
      omega
  · rw [closeType,hother]
    dsimp only
    rw [hindex₁,Nat.sub_add_cancel hpos,funext hlisted₁,filterMap_range_getElem]

/-- The run over all groups: each one is listed behind those that came before. -/
lemma Filled.addTypes {types : List ResourceType} (h : Filled maps done) (hnodup : types.Nodup)
    (hne : ∀ type ∈ types,metrics type ≠ []) (hfits : ∀ resource ∈ types.flatMap metrics,Fits resource)
    (hcount : (done ++ types.flatMap metrics).length < maxResourceCount)
    (hinitial : ∀ type ∈ types,maps.types type = ResourceMaps.initial.types type) :
    ∃ maps', types.foldlM (addResourcesOfType metrics) maps = .ok maps' ∧ Filled maps' (done ++ types.flatMap metrics) ∧
      (∀ other ∉ types,maps'.types other = maps.types other) ∧
      (∀ before type after,types = before ++ type::after →
        Listed metrics (maps'.types type) type (done ++ before.flatMap metrics)) ∧
      maps'.otherTimeResources =
        if .time ∈ types then (metrics .time).filter isOtherTime else maps.otherTimeResources := by
  induction types generalizing maps done with
  | nil =>
    refine ⟨maps,rfl,by rwa [List.flatMap_nil,List.append_nil],fun _ _ => rfl,?_,rfl⟩
    intro before type after heq
    simp at heq
  | cons type types ih =>
    rw [List.flatMap_cons] at hfits hcount ⊢
    rw [← List.append_assoc] at hcount ⊢
    obtain ⟨hnew,hnodup⟩ := List.nodup_cons.mp hnodup
    have hroom : (done ++ metrics type).length < maxResourceCount := by
      rw [List.length_append] at hcount
      omega
    obtain ⟨maps₁,hadd,hfilled₁,hsame₁,hlisted₁,hother₁⟩ := h.addType (hne type List.mem_cons_self)
      (fun r hr => hfits r (List.mem_append_left _ hr)) hroom (hinitial type List.mem_cons_self)
    have hinitial₁ : ∀ t ∈ types,maps₁.types t = ResourceMaps.initial.types t := by
      intro t ht
      rw [hsame₁ t (fun heq => hnew (heq ▸ ht))]
      exact hinitial t (List.mem_cons_of_mem _ ht)
    obtain ⟨maps',hrun,hfilled,hsame,hlisted,hother⟩ := ih hfilled₁ hnodup
      (fun t ht => hne t (List.mem_cons_of_mem _ ht)) (fun r hr => hfits r (List.mem_append_right _ hr)) hcount hinitial₁
    refine ⟨maps',?_,hfilled,?_,?_,?_⟩
    · rw [List.foldlM_cons]
      exact bind_eq_ok_iff.mpr ⟨maps₁,hadd,hrun⟩
    · intro other hothers
      obtain ⟨hne',hnotin⟩ := not_or.mp (mt List.mem_cons.mpr hothers)
      rw [hsame other hnotin,hsame₁ other hne']
    · intro before t after heq
      cases before with
      | nil =>
        obtain ⟨rfl,-⟩ := List.cons_eq_cons.mp heq
        rw [hsame type hnew,List.flatMap_nil,List.append_nil]
        exact hlisted₁
      | cons first before =>
        obtain ⟨rfl,htail⟩ := List.cons_eq_cons.mp heq
        rw [List.flatMap_cons,← List.append_assoc]
        exact hlisted before t after htail
    · rw [hother,hother₁]
      by_cases htime : type = .time
      · subst htime
        simp [hnew]
      · simp [htime,Ne.symm htime]

lemma fits_of_addResourcesOfType {maps' : ResourceMaps} (h : addResourcesOfType metrics maps type = .ok maps') :
    ∀ resource ∈ metrics type,Fits resource := by
  unfold addResourcesOfType at h
  split_ifs at h
  obtain ⟨added,hrun,-⟩ := bind_eq_ok_iff.mp h
  refine forall_of_foldlM ?_ hrun
  intro maps resource maps' hadd
  exact fits_of_addResource hadd

end Groups

/-! The whole configuration. -/

def ResourceType.before : ResourceType → List ResourceType
  | .time => []
  | .call => [.time]
  | .memory => [.time,.call]
  | .heap => [.time,.call,.memory]
  | .frontend => [.time,.call,.memory,.heap]
  | .dom => [.time,.call,.memory,.heap,.frontend]

/-- All metrics in the order of the configuration. -/
def resourceNames (metrics : ResourceType → List Bytes) : List Bytes := ResourceType.all.flatMap metrics

/-- A configuration with different metrics, some of every group and not too many. -/
structure MetricsConfig where
  metrics : ResourceType → List Bytes
  nonempty : ∀ type,metrics type ≠ []
  nodup : (resourceNames metrics).Nodup
  count_lt : (resourceNames metrics).length < maxResourceCount

/-- The number after the last one of the group before. -/
def ResourceMaps.firstOffset (maps : ResourceMaps) : ResourceType → ℕ
  | .time => 0
  | .call => (maps.types .time).lastOffset+1
  | .memory => (maps.types .call).lastOffset+1
  | .heap => (maps.types .memory).lastOffset+1
  | .frontend => (maps.types .heap).lastOffset+1
  | .dom => (maps.types .frontend).lastOffset+1

/-- The numbers and the names are in a bijection, and each group has the numbers of a range. -/
structure Numbered (metrics : ResourceType → List Bytes) (maps : ResourceMaps) : Prop where
  count : maps.lastResourceOffset+1 = (resourceNames metrics).length
  i2r_r2i : ∀ name ∈ resourceNames metrics,
    r2i maps name ≤ maps.lastResourceOffset ∧ i2r maps (r2i maps name) = .ok (some name)
  r2i_i2r : ∀ i ≤ maps.lastResourceOffset,
    ∃ name,(resourceNames metrics)[i]? = some name ∧ i2r maps i = .ok (some name) ∧ r2i maps name = i
  i2r_group : ∀ type k (h : k < (metrics type).length),
    i2r maps (maps.firstOffset type+k) = .ok (some (metrics type)[k])
  lastOffset : ∀ type,(maps.types type).lastOffset+1 = maps.firstOffset type+(metrics type).length
  last : (maps.types .dom).lastOffset = maps.lastResourceOffset
  mem_group_iff : ∀ type i name,i2r maps i = .ok (some name) →
    (maps.firstOffset type ≤ i ∧ i ≤ (maps.types type).lastOffset ↔ name ∈ metrics type)
  r2i_of_notMem : ∀ name ∉ resourceNames metrics,r2i maps name = 0
  suffixed : ∀ i name,i2r maps i = .ok (some name) →
    maps.intToResourceSq i = some (name ++ lit "_sq") ∧ maps.intToResourceMax i = some (name ++ lit "_max")
  otherTimeResources : maps.otherTimeResources = (metrics .time).filter isOtherTime

section Whole
variable {metrics : ResourceType → List Bytes} {maps : ResourceMaps}

lemma ResourceType.all_eq (type : ResourceType) : ∃ after,all = type.before ++ type::after := by
  cases type <;> exact ⟨_,rfl⟩

lemma firstOffset_eq (hlisted : ∀ type,Listed metrics (maps.types type) type (type.before.flatMap metrics))
    (type : ResourceType) : maps.firstOffset type = (type.before.flatMap metrics).length := by
  have hnext := fun type => (hlisted type).lastOffset
  cases type with
  | time => rfl
  | call => exact (hnext .time).trans (by simp [ResourceType.before])
  | memory => exact (hnext .call).trans (by simp [ResourceType.before])
  | heap => exact (hnext .memory).trans (by simp [ResourceType.before])
  | frontend => exact (hnext .heap).trans (by simp [ResourceType.before])
  | dom => exact (hnext .frontend).trans (by simp [ResourceType.before])

/-- The groups cut the names into ranges. -/
lemma resourceNames_eq (metrics : ResourceType → List Bytes) (type : ResourceType) :
    ∃ after,resourceNames metrics = type.before.flatMap metrics ++ (metrics type ++ after) := by
  obtain ⟨after,hall⟩ := type.all_eq
  exact ⟨after.flatMap metrics,by rw [resourceNames,hall,List.flatMap_append,List.flatMap_cons]⟩

lemma getElem_resourceNames (type : ResourceType) {k : ℕ} (h : k < (metrics type).length) :
    (resourceNames metrics)[(type.before.flatMap metrics).length+k]? = some (metrics type)[k] := by
  obtain ⟨after,hnames⟩ := resourceNames_eq metrics type
  rw [hnames,List.getElem?_append_right (by omega),Nat.add_sub_cancel_left,List.getElem?_append_left h,
    List.getElem?_eq_getElem h]

/-- Where there are no duplicates, the elements of a segment are those at its places. -/
lemma mem_segment_iff {α : Type} {before segment after : List α} (hnodup : (before ++ (segment ++ after)).Nodup) {i : ℕ} {a : α}
    (hi : (before ++ (segment ++ after))[i]? = some a) :
    before.length ≤ i ∧ i < before.length+segment.length ↔ a ∈ segment := by
  have hplace : ∀ k,k < segment.length → (before ++ (segment ++ after))[before.length+k]? = segment[k]? := by
    intro k hk
    rw [List.getElem?_append_right (by omega),Nat.add_sub_cancel_left,List.getElem?_append_left hk]
  constructor
  · rintro ⟨hlow,hhigh⟩
    have hk := hplace (i-before.length) (by omega)
    rw [Nat.add_sub_cancel' hlow,hi] at hk
    exact List.mem_of_getElem? hk.symm
  · intro hmem
    obtain ⟨k,hk,rfl⟩ := List.getElem_of_mem hmem
    have hsame : (before ++ (segment ++ after))[i]? = (before ++ (segment ++ after))[before.length+k]? := by
      rw [hi,hplace k hk,List.getElem?_eq_getElem hk]
    obtain rfl := (List.getElem?_inj (List.getElem?_eq_some_iff.mp hi).1 hnodup).mp hsame
    omega

lemma Filled.i2r_eq_some_iff {names : List Bytes} (h : Filled maps names) (hpos : 0 < names.length) (i : ℕ) (name : Bytes) :
    i2r maps.close i = .ok (some name) ↔ names[i]? = some name := by
  have hlast : maps.close.lastResourceOffset = names.length-1 := congrArg (·-1) h.offset
  have hentry : maps.close.intToResource i = names[i]? := h.intToResource i
  unfold i2r
  by_cases hi : i ≤ maps.close.lastResourceOffset
  · rw [if_pos hi,hentry,Except.ok.injEq]
  · rw [if_neg hi,List.getElem?_eq_none (by omega)]
    simp

lemma Filled.r2i_eq {names : List Bytes} (h : Filled maps names) {name : Bytes} (hname : name ∈ names) :
    r2i maps.close name = names.idxOf name := by
  have hentry : maps.close.resourceToInt[name]? = some (names.idxOf name) := (h.resourceToInt name).trans (if_pos hname)
  rw [r2i,Std.ExtTreeMap.getD_eq_getD_getElem?,hentry,Option.getD_some]

/-- What has been set up numbers the metrics, if their names are different. -/
lemma Filled.numbered (hfilled : Filled maps (resourceNames metrics)) (hpos : 0 < (resourceNames metrics).length)
    (hlisted : ∀ type,Listed metrics (maps.types type) type (type.before.flatMap metrics))
    (hnodup : (resourceNames metrics).Nodup) (hother : maps.otherTimeResources = (metrics .time).filter isOtherTime) :
    Numbered metrics maps.close := by
  have hlast : maps.close.lastResourceOffset+1 = (resourceNames metrics).length := by
    rw [ResourceMaps.close,hfilled.offset,Nat.sub_add_cancel hpos]
  have hi2r := hfilled.i2r_eq_some_iff hpos
  have hfirst : ∀ type,maps.close.firstOffset type = (type.before.flatMap metrics).length := firstOffset_eq hlisted
  have hgroup : ∀ type,(maps.close.types type).lastOffset+1 = maps.close.firstOffset type+(metrics type).length := by
    intro type
    rw [hfirst,← List.length_append]
    exact (hlisted type).lastOffset
  refine ⟨hlast,?_,?_,?_,hgroup,?_,?_,?_,?_,hother⟩
  · intro name hname
    have hlt := List.idxOf_lt_length_of_mem hname
    rw [hfilled.r2i_eq hname,hi2r,List.getElem?_eq_getElem hlt,List.getElem_idxOf]
    exact ⟨by omega,rfl⟩
  · intro i hi
    have hlt : i < (resourceNames metrics).length := by omega
    have hname := List.getElem?_eq_getElem hlt
    refine ⟨(resourceNames metrics)[i],hname,?_,?_⟩
    · rw [hi2r,hname]
    · rw [hfilled.r2i_eq (List.getElem_mem hlt),hnodup.idxOf_getElem]
  · intro type k hk
    rw [hi2r,hfirst]
    exact getElem_resourceNames type hk
  · have hdom := hgroup .dom
    have hall : ResourceType.dom.before.flatMap metrics ++ metrics .dom = resourceNames metrics := by
      simp [ResourceType.before,resourceNames,ResourceType.all]
    rw [hfirst,← List.length_append,hall] at hdom
    omega
  · intro type i name hi
    rw [hi2r] at hi
    obtain ⟨after,hsplit⟩ := resourceNames_eq metrics type
    rw [hsplit] at hi hnodup
    rw [← mem_segment_iff hnodup hi,← hfirst,← hgroup,Nat.lt_succ_iff]
  · intro name hname
    have hentry : maps.close.resourceToInt[name]? = none := (hfilled.resourceToInt name).trans (if_neg hname)
    rw [r2i,Std.ExtTreeMap.getD_eq_getD_getElem?,hentry,Option.getD_none]
  · intro i name hi
    rw [hi2r] at hi
    have hsq := hfilled.intToResourceSq i
    have hmax := hfilled.intToResourceMax i
    rw [hi,Option.map_some] at hsq hmax
    exact ⟨hsq,hmax⟩

end Whole

/-- The numbering is set up as long as all names with their suffixes fit the buffers. -/
theorem numbered_iff (config : MetricsConfig) :
    (∃ maps,setupResourceMaps config.metrics = .ok maps ∧ Numbered config.metrics maps) ↔
      ∀ name ∈ resourceNames config.metrics,name.length ≤ 251 := by
  constructor
  · rintro ⟨maps,hsetup,-⟩
    obtain ⟨filled,hrun,-⟩ := bind_eq_ok_iff.mp hsetup
    have hfits : ∀ type ∈ ResourceType.all,∀ resource ∈ config.metrics type,Fits resource := by
      refine forall_of_foldlM ?_ hrun
      intro maps type maps' hadd
      exact fits_of_addResourcesOfType hadd
    intro name hname
    obtain ⟨type,htype,hname⟩ := List.mem_flatMap.mp hname
    exact hfits type htype name hname
  · intro hfits
    obtain ⟨maps,hrun,hfilled,-,hlisted,hother⟩ := filled_initial.addTypes
      (show ResourceType.all.Nodup by decide) (fun type _ => config.nonempty type) hfits config.count_lt (fun _ _ => rfl)
    refine ⟨maps.close,bind_eq_ok_iff.mpr ⟨maps,hrun,rfl⟩,hfilled.numbered ?_ ?_ config.nodup ?_⟩
    · exact List.length_pos_iff.mpr fun hnil => config.nonempty .time (List.flatMap_eq_nil_iff.mp hnil _ (by decide))
    · intro type
      obtain ⟨after,hall⟩ := type.all_eq
      exact hlisted _ _ _ hall
    · exact hother.trans (if_pos (by decide))

/-- One metric in every group, the first of which has a long name. -/
def longNameMetrics : ResourceType → List Bytes
  | .time => [List.replicate 252 97]
  | .call => [lit "db_calls"]
  | .memory => [lit "allocated_objects"]
  | .heap => [lit "heap_size"]
  | .frontend => [lit "page_time"]
  | .dom => [lit "html_nodes"]

def longNameConfig : MetricsConfig where
  metrics := longNameMetrics
  nonempty := by
    intro type
    cases type <;> exact List.cons_ne_nil _ _
  nodup := by decide +kernel
  count_lt := by decide

theorem setupResourceMaps_longName :
    setupResourceMaps longNameConfig.metrics = .error .bufferOverflow ∧
      ¬∃ maps,setupResourceMaps longNameConfig.metrics = .ok maps ∧ Numbered longNameConfig.metrics maps := by
  have hsq : sprintf resourceBufferSize (List.replicate 252 97 ++ lit "_sq") = .ok (List.replicate 252 97 ++ lit "_sq") :=
    if_pos (by decide +kernel)
  have hmax : sprintf resourceBufferSize (List.replicate 252 97 ++ lit "_max") = .error .bufferOverflow :=
    if_neg (by decide +kernel)
  have hadd : addResource .time .initial (List.replicate 252 97) = .error .bufferOverflow := by
    rw [addResource,hsq,hmax]
    rfl
  have hsetup : setupResourceMaps longNameConfig.metrics = .error .bufferOverflow := by
    have htype : addResourcesOfType longNameMetrics .initial .time = .error .bufferOverflow := by
      rw [addResourcesOfType,longNameMetrics,if_neg (List.cons_ne_nil _ _),List.foldlM_cons,hadd]
      rfl
    rw [setupResourceMaps,ResourceType.all,List.foldlM_cons]
    exact congrArg (fun x => (x >>= _) >>= _) htype
  refine ⟨hsetup,?_⟩
  rintro ⟨maps,hmaps,-⟩
  rw [hsetup] at hmaps
  cases hmaps

/-! The numbering as the processors use it. -/

/-- The names are apart from their derived names and from the request counters. -/
structure NamesApart (names : List Bytes) : Prop where
  ne_sq : ∀ a ∈ names,∀ b ∈ names,a ≠ b ++ lit "_sq"
  ne_max : ∀ a ∈ names,∀ b ∈ names,a ≠ b ++ lit "_max"
  ne_count : ∀ a ∈ names,a ∉ countFields
  no_dot : ∀ a ∈ names,46 ∉ a

section Resources
variable {config : MetricsConfig} {maps : ResourceMaps}

lemma Numbered.r2i_lt (h : Numbered config.metrics maps) (name : Bytes) :
    r2i maps name < (resourceNames config.metrics).length := by
  by_cases hname : name ∈ resourceNames config.metrics
  · have hle := (h.i2r_r2i name hname).1
    have hcount := h.count
    omega
  · rw [h.r2i_of_notMem name hname,← h.count]
    exact Nat.succ_pos _

/-- The maps as the record that the other modules work with. -/
def Numbered.toResources (h : Numbered config.metrics maps) (hapart : NamesApart (resourceNames config.metrics)) :
    Resources (resourceNames config.metrics).length where
  intToResource i := (resourceNames config.metrics)[i]
  otherTimeResources := maps.otherTimeResources
  lastTimeResourceOffset := (maps.types .time).lastOffset
  lastHeapResourceOffset := (maps.types .heap).lastOffset
  lastFrontendResourceOffset := (maps.types .frontend).lastOffset
  allocatedObjectsIndex := ⟨r2i maps (lit "allocated_objects"),h.r2i_lt _⟩
  allocatedBytesIndex := ⟨r2i maps (lit "allocated_bytes"),h.r2i_lt _⟩
  totalTimeIndex := ⟨r2i maps (lit "total_time"),h.r2i_lt _⟩
  pageTimeIndex := ⟨r2i maps (lit "page_time"),h.r2i_lt _⟩
  ajaxTimeIndex := ⟨r2i maps (lit "ajax_time"),h.r2i_lt _⟩
  injective := fun _ _ heq => Fin.ext (config.nodup.getElem_inj_iff.mp heq)
  ne_sq := fun _ _ => hapart.ne_sq _ (List.getElem_mem _) _ (List.getElem_mem _)
  ne_max := fun _ _ => hapart.ne_max _ (List.getElem_mem _) _ (List.getElem_mem _)
  ne_count := fun _ => hapart.ne_count _ (List.getElem_mem _)
  no_dot := fun _ => hapart.no_dot _ (List.getElem_mem _)

variable (h : Numbered config.metrics maps) (hapart : NamesApart (resourceNames config.metrics))
  (i : Fin (resourceNames config.metrics).length)

lemma Numbered.i2r_toResources : i2r maps i = .ok (some ((h.toResources hapart).intToResource i)) ∧
    r2i maps ((h.toResources hapart).intToResource i) = i := by
  have hle : i.val ≤ maps.lastResourceOffset := by
    have hcount := h.count
    omega
  obtain ⟨name,hname,hi2r,hr2i⟩ := h.r2i_i2r i hle
  have hsame : (h.toResources hapart).intToResource i = name :=
    Option.some.inj ((List.getElem?_eq_getElem i.isLt).symm.trans hname)
  rw [hsame]
  exact ⟨hi2r,hr2i⟩

/-- Outside of the times, only the metric itself has the number that was looked up for its name. -/
lemma Numbered.r2i_eq_iff (htime : (h.toResources hapart).intToResource i ∉ config.metrics .time) (name : Bytes) :
    r2i maps name = i ↔ (h.toResources hapart).intToResource i = name := by
  obtain ⟨hi2r,hr2i⟩ := h.i2r_toResources hapart i
  constructor
  · intro heq
    by_cases hname : name ∈ resourceNames config.metrics
    · have hback := (h.i2r_r2i name hname).2
      rw [heq,hi2r] at hback
      exact Option.some.inj (Except.ok.inj hback)
    · -- a name that is not found has the number of the first time
      rw [h.r2i_of_notMem name hname] at heq
      refine absurd ((h.mem_group_iff .time i _ hi2r).mp ⟨Nat.zero_le _,?_⟩) htime
      rw [← heq]
      exact Nat.zero_le _
  · rintro rfl
    exact hr2i

/-- The tests of processor_add_quants tell the groups apart. -/
theorem Numbered.quantKind_toResources :
    quantKind (h.toResources hapart) i =
      let name := (h.toResources hapart).intToResource i
      if name ∈ config.metrics .time then some (116,1)
      else if name = lit "allocated_objects" then some (109,1)
      else if name = lit "allocated_bytes" then some (109,1024)
      else if name ∈ config.metrics .frontend then some (102,1)
      else none := by
  have hi2r := (h.i2r_toResources hapart i).1
  have htime := h.mem_group_iff .time i _ hi2r
  have hfrontend := h.mem_group_iff .frontend i _ hi2r
  rw [show maps.firstOffset .time = 0 from rfl,and_iff_right (Nat.zero_le _)] at htime
  unfold quantKind
  dsimp only
  by_cases hmem : (h.toResources hapart).intToResource i ∈ config.metrics .time
  · rw [if_pos hmem]
    exact if_pos (htime.mpr hmem)
  · have hindex := h.r2i_eq_iff hapart i hmem
    have hobjects : i = (h.toResources hapart).allocatedObjectsIndex ↔
        (h.toResources hapart).intToResource i = lit "allocated_objects" := by
      rw [← hindex,Fin.ext_iff]
      exact eq_comm
    have hbytes : i = (h.toResources hapart).allocatedBytesIndex ↔
        (h.toResources hapart).intToResource i = lit "allocated_bytes" := by
      rw [← hindex,Fin.ext_iff]
      exact eq_comm
    have hrange : (h.toResources hapart).lastHeapResourceOffset < i.val ∧
        i.val ≤ (h.toResources hapart).lastFrontendResourceOffset ↔
          (h.toResources hapart).intToResource i ∈ config.metrics .frontend := hfrontend
    rw [if_neg hmem]
    refine (if_neg (mt htime.mp hmem)).trans ?_
    simp only [hobjects,hbytes,hrange]

end Resources

end Logjam.Importer
