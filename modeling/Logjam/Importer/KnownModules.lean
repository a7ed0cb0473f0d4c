import Logjam.Importer.Increments

/-! The modules of a stream from which something has been heard lately. -/
namespace Logjam.Importer
open Logjam.Library.MergeMap

def oneDayMs : ℕ := 1000*60*60*24

/-- A time in milliseconds, with a day before it that is after 1970 as well. -/
def AfterFirstDay (now : ℕ) : Prop := oneDayMs ≤ now ∧ now < 2^64

instance (now : ℕ) : Decidable (AfterFirstDay now) := inferInstanceAs (Decidable (_ ∧ _))

/-- The second loop of update_known_modules, for one module. -/
def deleteIfOld (ageThreshold : ℕ) (knownModules : ZHash ℕ) (module : Bytes) : ZHash ℕ :=
  match knownModules[module]? with
  | some lastSeen => if lastSeen < ageThreshold then knownModules.erase module else knownModules
  | none => knownModules

def updateKnownModules (now : ℕ) (knownModules : ZHash ℕ) (moduleHash : ZHash Unit) : ZHash ℕ :=
  let ageThreshold := (now+2^64-oneDayMs)%2^64
  let knownModules := moduleHash.keys.foldl (fun known module => known.insert module now) knownModules
  let knownModules := knownModules.keys.foldl (deleteIfOld ageThreshold) knownModules
  if 0 < knownModules.size then knownModules.insert (lit "all_pages") now else knownModules

/-- When something was last heard from a module, if that was not too long ago. -/
def heard (now : ℕ) (knownModules : ZHash ℕ) (moduleHash : ZHash Unit) (module : Bytes) : Option ℕ :=
  if module ∈ moduleHash then some now
  else (knownModules[module]?).filter fun lastSeen => now-oneDayMs ≤ lastSeen

/-- Something has been heard from the stream. -/
def Heard (now : ℕ) (knownModules : ZHash ℕ) (moduleHash : ZHash Unit) : Prop :=
  ∃ module,heard now knownModules moduleHash module ≠ none

lemma getElem?_foldl_insert (now : ℕ) (modules : List Bytes) (known : ZHash ℕ) (module : Bytes) :
    (modules.foldl (fun known module => known.insert module now) known)[module]? =
      if module ∈ modules then some now else known[module]? := by
  induction modules generalizing known with
  | nil => simp
  | cons m modules ih =>
    have hinsert : (known.insert m now)[module]? = if m = module then some now else known[module]? :=
      value_insert known m module now
    rw [List.foldl_cons,ih,hinsert]
    by_cases hm : m = module
    · simp [hm]
    · simp [hm,Ne.symm hm]

lemma getElem?_deleteIfOld (ageThreshold : ℕ) (known : ZHash ℕ) (m module : Bytes) :
    (deleteIfOld ageThreshold known m)[module]? =
      if m = module then (known[module]?).filter fun lastSeen => ageThreshold ≤ lastSeen else known[module]? := by
  unfold deleteIfOld
  have herase : (known.erase m)[module]? = if m = module then none else known[module]? := value_erase known m module
  by_cases hm : m = module
  · subst hm
    rw [if_pos rfl]
    cases hseen : known[m]? with
    | none => exact hseen
    | some seen =>
      by_cases hold : seen < ageThreshold
      · simp only [if_pos hold,herase,if_true]
        rw [Option.filter_some,if_neg (by simpa using hold)]
      · simp only [if_neg hold,hseen]
        rw [Option.filter_some,if_pos (by simpa using hold)]
  · rw [if_neg hm]
    cases known[m]? with
    | none => rfl
    | some seen =>
      by_cases hold : seen < ageThreshold
      · simp only [if_pos hold,herase,if_neg hm]
      · simp only [if_neg hold]

lemma getElem?_foldl_deleteIfOld (ageThreshold : ℕ) (modules : List Bytes) (known : ZHash ℕ) (module : Bytes) :
    (modules.foldl (deleteIfOld ageThreshold) known)[module]? =
      if module ∈ modules then (known[module]?).filter fun lastSeen => ageThreshold ≤ lastSeen else known[module]? := by
  induction modules generalizing known with
  | nil => simp
  | cons m modules ih =>
    rw [List.foldl_cons,ih,getElem?_deleteIfOld]
    by_cases hm : m = module
    · simp [hm,Option.filter_filter]
    · simp [hm,Ne.symm hm]

/-- What is left after the second loop. -/
def heardTable (now : ℕ) (knownModules : ZHash ℕ) (moduleHash : ZHash Unit) : ZHash ℕ :=
  let seen := moduleHash.keys.foldl (fun known module => known.insert module now) knownModules
  seen.keys.foldl (deleteIfOld ((now+2^64-oneDayMs)%2^64)) seen

lemma updateKnownModules_eq (now : ℕ) (knownModules : ZHash ℕ) (moduleHash : ZHash Unit) :
    updateKnownModules now knownModules moduleHash =
      if 0 < (heardTable now knownModules moduleHash).size then
        (heardTable now knownModules moduleHash).insert (lit "all_pages") now
      else heardTable now knownModules moduleHash := rfl

lemma getElem?_deleteOld (ageThreshold : ℕ) (known : ZHash ℕ) (module : Bytes) :
    (known.keys.foldl (deleteIfOld ageThreshold) known)[module]? =
      (known[module]?).filter fun lastSeen => ageThreshold ≤ lastSeen := by
  rw [getElem?_foldl_deleteIfOld]
  by_cases hmem : module ∈ known
  · rw [if_pos (Std.ExtTreeMap.mem_keys.mpr hmem)]
  · rw [if_neg (mt Std.ExtTreeMap.mem_keys.mp hmem),Std.ExtTreeMap.getElem?_eq_none hmem]
    rfl

lemma ageThreshold_eq {now : ℕ} (h : AfterFirstDay now) : (now+2^64-oneDayMs)%2^64 = now-oneDayMs := by
  obtain ⟨hday,hnow⟩ := h
  unfold oneDayMs at hday ⊢
  omega

section Clock
variable {now : ℕ} (hnow : AfterFirstDay now) {knownModules : ZHash ℕ} {moduleHash : ZHash Unit}
include hnow

lemma getElem?_heardTable (module : Bytes) :
    (heardTable now knownModules moduleHash)[module]? = heard now knownModules moduleHash module := by
  rw [heardTable,ageThreshold_eq hnow,getElem?_deleteOld,getElem?_foldl_insert,heard]
  by_cases hmem : module ∈ moduleHash
  · rw [if_pos hmem,if_pos (Std.ExtTreeMap.mem_keys.mpr hmem),Option.filter_some,if_pos]
    simp
  · rw [if_neg hmem,if_neg (mt Std.ExtTreeMap.mem_keys.mp hmem)]

lemma heardTable_size_pos_iff :
    0 < (heardTable now knownModules moduleHash).size ↔ Heard now knownModules moduleHash := by
  rw [Nat.pos_iff_ne_zero,ne_eq,← Std.ExtTreeMap.eq_empty_iff_size_eq_zero,Heard]
  constructor
  · intro hne
    by_contra hall
    push Not at hall
    refine hne (Std.ExtTreeMap.ext_getElem? fun module => ?_)
    rw [getElem?_heardTable hnow,hall,Std.ExtTreeMap.getElem?_empty]
  · rintro ⟨module,hmodule⟩ hempty
    rw [← getElem?_heardTable hnow,hempty,Std.ExtTreeMap.getElem?_empty] at hmodule
    exact hmodule rfl

/-- The table holds what has been heard within a day; all_pages is as recent as the update, unless the
table is empty. -/
theorem getElem?_updateKnownModules (module : Bytes) [Decidable (Heard now knownModules moduleHash)] :
    (updateKnownModules now knownModules moduleHash)[module]? =
      if lit "all_pages" = module ∧ Heard now knownModules moduleHash then some now
      else heard now knownModules moduleHash module := by
  rw [updateKnownModules_eq]
  by_cases hheard : Heard now knownModules moduleHash
  · have hinsert := value_insert (heardTable now knownModules moduleHash) (lit "all_pages") module now
    rw [if_pos ((heardTable_size_pos_iff hnow).mpr hheard)]
    refine hinsert.trans ?_
    simp only [hheard,and_true]
    exact if_congr Iff.rfl rfl (getElem?_heardTable hnow module)
  · rw [if_neg (mt (heardTable_size_pos_iff hnow).mp hheard),if_neg fun h => hheard h.2]
    exact getElem?_heardTable hnow module

lemma updateKnownModules_of_heard (h : Heard now knownModules moduleHash) :
    (updateKnownModules now knownModules moduleHash)[lit "all_pages"]? = some now := by
  classical
  rw [getElem?_updateKnownModules hnow,if_pos ⟨rfl,h⟩]

lemma updateKnownModules_of_not_heard (h : ¬Heard now knownModules moduleHash) : updateKnownModules now knownModules moduleHash = ∅ := by
  rw [updateKnownModules_eq,if_neg (mt (heardTable_size_pos_iff hnow).mp h)]
  rw [← heardTable_size_pos_iff hnow,Nat.pos_iff_ne_zero,not_not] at h
  exact Std.ExtTreeMap.eq_empty_iff_size_eq_zero.mpr h

end Clock

lemma not_heard_iff {now : ℕ} {knownModules : ZHash ℕ} {moduleHash : ZHash Unit} :
    ¬Heard now knownModules moduleHash ↔ moduleHash = ∅ ∧
      ∀ (module : Bytes) lastSeen,knownModules[module]? = some lastSeen → lastSeen+oneDayMs < now := by
  constructor
  · intro h
    have hmodules : moduleHash = ∅ := by
      refine Std.ExtTreeMap.ext_getElem? fun module => ?_
      rw [Std.ExtTreeMap.getElem?_empty]
      by_contra hmem
      refine h ⟨module,?_⟩
      rw [heard,if_pos (Std.ExtTreeMap.mem_iff_isSome_getElem?.mpr (Option.isSome_iff_ne_none.mpr hmem))]
      exact Option.some_ne_none now
    refine ⟨hmodules,fun module lastSeen hseen => ?_⟩
    by_contra hrecent
    refine h ⟨module,?_⟩
    rw [heard,hmodules,if_neg Std.ExtTreeMap.not_mem_empty,hseen,Option.filter_some,
      if_pos (decide_eq_true (by omega))]
    exact Option.some_ne_none lastSeen
  · rintro ⟨rfl,hold⟩ ⟨module,hmodule⟩
    rw [heard,if_neg Std.ExtTreeMap.not_mem_empty] at hmodule
    obtain ⟨lastSeen,hseen⟩ := Option.ne_none_iff_exists'.mp hmodule
    rw [Option.filter_eq_some_iff,decide_eq_true_eq] at hseen
    exact absurd (hold module lastSeen hseen.1) (by omega)

end Logjam.Importer
