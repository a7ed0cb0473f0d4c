import Logjam.Importer.KnownModules

/-! The known modules of a stream over many updates. Modules are forgotten a day after they were seen last.
The summary entry all_pages is refreshed as long as the table is not empty, and an entry of its own is enough
for that. -/
namespace Logjam.Importer

/-- A call of update_known_modules. -/
structure ModuleUpdate where
  now : ℕ
  modules : ZHash Unit

/-- The table after some calls. -/
def knownModulesAfter (calls : List ModuleUpdate) : ZHash ℕ :=
  calls.foldl (fun known call => updateKnownModules call.now known call.modules) ∅

/-- A module has been seen within a day before some time. -/
def SeenWithinDay (calls : List ModuleUpdate) (now : ℕ) (module : Bytes) : Prop :=
  ∃ call ∈ calls,module ∈ call.modules ∧ now ≤ call.now+oneDayMs

/-- Some modules have been seen, and since then the calls came within a day of each other. -/
inductive Lingers : List ModuleUpdate → Prop
  | seen (calls : List ModuleUpdate) {call : ModuleUpdate} (h : call.modules ≠ ∅) : Lingers (calls ++ [call])
  | refreshed {calls : List ModuleUpdate} {last call : ModuleUpdate} (h : Lingers (calls ++ [last]))
      (hgap : call.now ≤ last.now+oneDayMs) : Lingers (calls ++ [last] ++ [call])

/-- The clock is past the first day of 1970 at every call, and does not go backwards. -/
def TimesAscend (calls : List ModuleUpdate) : Prop :=
  (∀ call ∈ calls,AfterFirstDay call.now) ∧ calls.Pairwise fun a b => a.now ≤ b.now

instance (calls : List ModuleUpdate) : Decidable (TimesAscend calls) := inferInstanceAs (Decidable (_ ∧ _))

lemma knownModulesAfter_concat (calls : List ModuleUpdate) (call : ModuleUpdate) :
    knownModulesAfter (calls ++ [call]) = updateKnownModules call.now (knownModulesAfter calls) call.modules := by
  rw [knownModulesAfter,List.foldl_append]
  rfl

lemma TimesAscend.concat {calls : List ModuleUpdate} {call : ModuleUpdate} (h : TimesAscend (calls ++ [call])) :
    TimesAscend calls ∧ ∀ c ∈ calls,c.now ≤ call.now := by
  obtain ⟨hcalls,-,hlast⟩ := List.pairwise_append.mp h.2
  exact ⟨⟨fun c hc => h.1 c (List.mem_append_left _ hc),hcalls⟩,fun c hc => hlast c hc call (List.mem_singleton_self call)⟩

lemma TimesAscend.clock {calls : List ModuleUpdate} {call : ModuleUpdate} (h : TimesAscend (calls ++ [call])) :
    AfterFirstDay call.now := h.1 call (List.mem_append_right _ (List.mem_singleton_self call))

/-- No call is later than the last one. -/
lemma TimesAscend.le_last {calls : List ModuleUpdate} {call c : ModuleUpdate} (h : TimesAscend (calls ++ [call]))
    (hc : c ∈ calls ++ [call]) : c.now ≤ call.now := by
  rcases List.mem_append.mp hc with hc | hc
  · exact h.concat.2 c hc
  · rw [List.mem_singleton.mp hc]

lemma getElem?_knownModulesAfter_nil (module : Bytes) : (knownModulesAfter [])[module]? = none := Std.ExtTreeMap.getElem?_empty

/-! The modules. -/

/-- When a module was seen last. -/
def lastSeen (module : Bytes) (calls : List ModuleUpdate) : Option ℕ :=
  calls.foldl (fun seen call => if module ∈ call.modules then some call.now else seen) none

lemma lastSeen_concat (module : Bytes) (calls : List ModuleUpdate) (call : ModuleUpdate) :
    lastSeen module (calls ++ [call]) = if module ∈ call.modules then some call.now else lastSeen module calls := by
  rw [lastSeen,List.foldl_append]
  rfl

/-- What is left of an entry when something older than a day is dropped. -/
def younger (now : ℕ) (seen : Option ℕ) : Option ℕ :=
  seen.filter fun seen => now ≤ seen+oneDayMs

lemma younger_eq_some_iff {now t : ℕ} {seen : Option ℕ} :
    younger now seen = some t ↔ seen = some t ∧ now ≤ t+oneDayMs := by
  rw [younger,Option.filter_eq_some_iff,decide_eq_true_eq]

/-- What is dropped at some time is dropped later as well. -/
lemma younger_younger {now later : ℕ} (h : now ≤ later) (seen : Option ℕ) :
    younger later (younger now seen) = younger later seen := by
  ext t
  simp only [younger_eq_some_iff]
  constructor
  · rintro ⟨⟨hseen,-⟩,hlater⟩
    exact ⟨hseen,hlater⟩
  · rintro ⟨hseen,hlater⟩
    exact ⟨⟨hseen,h.trans hlater⟩,hlater⟩

lemma heard_eq (now : ℕ) (knownModules : ZHash ℕ) (moduleHash : ZHash Unit) (module : Bytes) :
    heard now knownModules moduleHash module =
      if module ∈ moduleHash then some now else younger now knownModules[module]? := by
  simp only [heard,younger,Nat.sub_le_iff_le_add]

lemma getElem?_updateKnownModules_of_ne {module : Bytes} (h : module ≠ lit "all_pages") {now : ℕ}
    (hnow : AfterFirstDay now) (knownModules : ZHash ℕ) (moduleHash : ZHash Unit) :
    (updateKnownModules now knownModules moduleHash)[module]? =
      if module ∈ moduleHash then some now else younger now knownModules[module]? := by
  classical
  rw [getElem?_updateKnownModules hnow,if_neg fun hpages => h hpages.1.symm,heard_eq]

/-- Entries and times of modules differ in what is too old to be looked at again. -/
lemma younger_knownModulesAfter {module : Bytes} (h : module ≠ lit "all_pages") {calls : List ModuleUpdate}
    (hcalls : TimesAscend calls) {now : ℕ} (hnow : ∀ call ∈ calls,call.now ≤ now) :
    younger now (knownModulesAfter calls)[module]? = younger now (lastSeen module calls) := by
  induction calls using List.reverseRecOn generalizing now with
  | nil => rw [getElem?_knownModulesAfter_nil,lastSeen,List.foldl_nil]
  | append_singleton calls call ih =>
    have hclock := hcalls.clock
    obtain ⟨hcalls,hlast⟩ := hcalls.concat
    rw [knownModulesAfter_concat,getElem?_updateKnownModules_of_ne h hclock,lastSeen_concat]
    by_cases hmem : module ∈ call.modules
    · rw [if_pos hmem,if_pos hmem]
    · have hcall : call.now ≤ now := hnow call (List.mem_append_right _ (List.mem_singleton_self call))
      rw [if_neg hmem,if_neg hmem,ih hcalls hlast,younger_younger hcall]

/-- The entry of a module is the time when it was seen last, if that is not more than a day ago. -/
theorem getElem?_knownModulesAfter {module : Bytes} (h : module ≠ lit "all_pages") {calls : List ModuleUpdate}
    {call : ModuleUpdate} (hcalls : TimesAscend (calls ++ [call])) :
    (knownModulesAfter (calls ++ [call]))[module]? = younger call.now (lastSeen module (calls ++ [call])) := by
  obtain ⟨hbefore,hlast⟩ := hcalls.concat
  rw [knownModulesAfter_concat,getElem?_updateKnownModules_of_ne h hcalls.clock,lastSeen_concat]
  by_cases hmem : module ∈ call.modules
  · rw [if_pos hmem,if_pos hmem]
    exact (younger_eq_some_iff.mpr ⟨rfl,Nat.le_add_right _ _⟩).symm
  · rw [if_neg hmem,if_neg hmem,younger_knownModulesAfter h hbefore hlast]

lemma seenWithinDay_iff {calls : List ModuleUpdate} (h : TimesAscend calls) (now : ℕ) (module : Bytes) :
    SeenWithinDay calls now module ↔ ∃ seen,younger now (lastSeen module calls) = some seen := by
  induction calls using List.reverseRecOn with
  | nil => exact iff_of_false (fun ⟨_,hmem,_⟩ => List.not_mem_nil hmem) fun ⟨_,hseen⟩ => nomatch hseen
  | append_singleton calls call ih =>
    rw [lastSeen_concat]
    by_cases hmem : module ∈ call.modules
    · rw [if_pos hmem]
      constructor
      · rintro ⟨c,hc,-,hday⟩
        have hle := h.le_last hc
        exact ⟨call.now,younger_eq_some_iff.mpr ⟨rfl,by omega⟩⟩
      · rintro ⟨seen,hseen⟩
        obtain ⟨heq,hday⟩ := younger_eq_some_iff.mp hseen
        obtain rfl := Option.some.inj heq
        exact ⟨call,List.mem_append_right _ (List.mem_singleton_self call),hmem,hday⟩
    · rw [if_neg hmem,← ih h.concat.1]
      constructor
      · rintro ⟨c,hc,hseen,hday⟩
        rcases List.mem_append.mp hc with hc | hc
        · exact ⟨c,hc,hseen,hday⟩
        · exact absurd (List.mem_singleton.mp hc ▸ hseen) hmem
      · rintro ⟨c,hc,hseen,hday⟩
        exact ⟨c,List.mem_append_left _ hc,hseen,hday⟩

lemma mem_knownModulesAfter_iff {module : Bytes} (h : module ≠ lit "all_pages") {calls : List ModuleUpdate}
    {call : ModuleUpdate} (hcalls : TimesAscend (calls ++ [call])) :
    module ∈ knownModulesAfter (calls ++ [call]) ↔ SeenWithinDay (calls ++ [call]) call.now module := by
  rw [Std.ExtTreeMap.mem_iff_isSome_getElem?,getElem?_knownModulesAfter h hcalls,Option.isSome_iff_exists,
    seenWithinDay_iff hcalls]

/-! The summary entry. -/

/-- Every entry is the time of a call. -/
lemma exists_call_of_entry {calls : List ModuleUpdate} (hclock : TimesAscend calls) {module : Bytes} {t : ℕ}
    (h : (knownModulesAfter calls)[module]? = some t) : ∃ call ∈ calls,call.now = t := by
  classical
  induction calls using List.reverseRecOn with
  | nil =>
    rw [getElem?_knownModulesAfter_nil] at h
    cases h
  | append_singleton calls call ih =>
    have hlast : call ∈ calls ++ [call] := List.mem_append_right _ (List.mem_singleton_self call)
    rw [knownModulesAfter_concat,getElem?_updateKnownModules hclock.clock,heard_eq] at h
    split_ifs at h
    · exact ⟨call,hlast,Option.some.inj h⟩
    · exact ⟨call,hlast,Option.some.inj h⟩
    · obtain ⟨c,hc,heq⟩ := ih hclock.concat.1 (younger_eq_some_iff.mp h).1
      exact ⟨c,List.mem_append_left _ hc,heq⟩

lemma lingers_concat_iff {calls : List ModuleUpdate} {call : ModuleUpdate} :
    Lingers (calls ++ [call]) ↔ call.modules ≠ ∅ ∨
      ∃ before last,calls = before ++ [last] ∧ Lingers calls ∧ call.now ≤ last.now+oneDayMs := by
  constructor
  · intro h
    generalize heq : calls ++ [call] = all at h
    cases h with
    | seen calls' h =>
      obtain ⟨-,hcall⟩ := List.append_inj' heq rfl
      exact .inl (List.singleton_inj.mp hcall ▸ h)
    | @refreshed before last call' h hgap =>
      obtain ⟨rfl,hcall⟩ := List.append_inj' heq rfl
      exact .inr ⟨before,last,rfl,h,List.singleton_inj.mp hcall ▸ hgap⟩
  · rintro (h | ⟨before,last,rfl,h,hgap⟩)
    · exact .seen calls h
    · exact .refreshed h hgap

/-- The summary keeps itself alive. -/
lemma heard_iff_lingers {calls : List ModuleUpdate} {call : ModuleUpdate} (h : TimesAscend (calls ++ [call])) :
    Heard call.now (knownModulesAfter calls) call.modules ↔ Lingers (calls ++ [call]) := by
  induction calls using List.reverseRecOn generalizing call with
  | nil =>
    rw [← not_iff_not,not_heard_iff,lingers_concat_iff]
    constructor
    · rintro ⟨hempty,-⟩ (hne | ⟨before,last,heq,-,-⟩)
      · exact hne hempty
      · exact List.append_ne_nil_of_right_ne_nil _ (List.cons_ne_nil _ _) heq.symm
    · intro hnot
      refine ⟨not_not.mp fun hne => hnot (.inl hne),fun module seen hseen => ?_⟩
      rw [getElem?_knownModulesAfter_nil] at hseen
      cases hseen
  | append_singleton before last ih =>
    obtain ⟨hbefore,-⟩ := h.concat
    rw [lingers_concat_iff]
    constructor
    · intro hheard
      by_contra hnot
      push Not at hnot
      obtain ⟨hempty,hold⟩ := hnot
      refine not_heard_iff.mpr ⟨hempty,fun module seen hseen => ?_⟩ hheard
      by_cases hlingers : Lingers (before ++ [last])
      · -- no entry is younger than the last call
        have hgap := hold before last rfl hlingers
        obtain ⟨c,hc,rfl⟩ := exists_call_of_entry hbefore hseen
        have hle := hbefore.le_last hc
        omega
      · have hnone := updateKnownModules_of_not_heard hbefore.clock (mt (ih hbefore).mp hlingers)
        rw [knownModulesAfter_concat,hnone,Std.ExtTreeMap.getElem?_empty] at hseen
        cases hseen
    · rintro (hne | ⟨before',last',heq,hlingers,hgap⟩)
      · by_contra hnot
        exact hne (not_heard_iff.mp hnot).1
      · obtain ⟨-,hcall⟩ := List.append_inj' heq rfl
        obtain rfl := List.singleton_inj.mp hcall
        have hpages := updateKnownModules_of_heard hbefore.clock ((ih hbefore).mpr hlingers)
        by_contra hnot
        have hlate := (not_heard_iff.mp hnot).2 (lit "all_pages") last.now (by rw [knownModulesAfter_concat,hpages])
        omega

lemma all_pages_mem_iff {calls : List ModuleUpdate} {call : ModuleUpdate} (h : TimesAscend (calls ++ [call])) :
    lit "all_pages" ∈ knownModulesAfter (calls ++ [call]) ↔ Lingers (calls ++ [call]) := by
  rw [← heard_iff_lingers h,knownModulesAfter_concat,Std.ExtTreeMap.mem_iff_isSome_getElem?]
  constructor
  · intro hsome
    by_contra hnot
    rw [updateKnownModules_of_not_heard h.clock hnot,Std.ExtTreeMap.getElem?_empty] at hsome
    cases hsome
  · intro hheard
    rw [updateKnownModules_of_heard h.clock hheard]
    rfl

/-- A module that was seen within a day keeps the summary. -/
lemma lingers_of_seenWithinDay {calls : List ModuleUpdate} {call : ModuleUpdate} {module : Bytes}
    (h : TimesAscend (calls ++ [call])) (hmodule : module ≠ lit "all_pages")
    (hseen : SeenWithinDay (calls ++ [call]) call.now module) : Lingers (calls ++ [call]) := by
  rw [← heard_iff_lingers h]
  by_contra hnot
  have hmem := (mem_knownModulesAfter_iff hmodule h).mpr hseen
  rw [knownModulesAfter_concat,updateKnownModules_of_not_heard h.clock hnot] at hmem
  exact Std.ExtTreeMap.not_mem_empty hmem

/-- The table is what it is meant to be if the summary is not the only entry that is left. It is, as long
as there is an update every day after the last module has been seen. -/
theorem knownModules_expire_iff {calls : List ModuleUpdate} {call : ModuleUpdate} (h : TimesAscend (calls ++ [call]))
    (hpages : ∀ c ∈ calls ++ [call],lit "all_pages" ∉ c.modules) :
    (∀ module,module ∈ knownModulesAfter (calls ++ [call]) ↔ SeenWithinDay (calls ++ [call]) call.now module ∨
      module = lit "all_pages" ∧ ∃ other,SeenWithinDay (calls ++ [call]) call.now other) ↔
      (Lingers (calls ++ [call]) → ∃ module,SeenWithinDay (calls ++ [call]) call.now module) := by
  have hnever : ¬SeenWithinDay (calls ++ [call]) call.now (lit "all_pages") :=
    fun ⟨c,hc,hmem,_⟩ => hpages c hc hmem
  constructor
  · intro hall hlingers
    have hpages := (hall (lit "all_pages")).mp ((all_pages_mem_iff h).mpr hlingers)
    exact (hpages.resolve_left hnever).2
  · intro hlingers module
    by_cases hmodule : module = lit "all_pages"
    · subst hmodule
      rw [all_pages_mem_iff h,or_iff_right hnever,and_iff_right rfl]
      refine ⟨hlingers,fun ⟨other,hother⟩ => lingers_of_seenWithinDay h ?_ hother⟩
      rintro rfl
      exact hnever hother
    · rw [mem_knownModulesAfter_iff hmodule h]
      exact (or_iff_left fun hpage => hmodule hpage.1).symm

/-- Some time after the first day of 1970, in days. -/
def dayTime (k : ℕ) : ℕ := oneDayMs*(k+1)

/-- A module is seen on one day, and nothing is seen on other days. -/
def cartSeen (k : ℕ) : ModuleUpdate := ⟨dayTime k,(∅ : ZHash Unit).insert (lit "::Cart") ()⟩

def nothingSeen (k : ℕ) : ModuleUpdate := ⟨dayTime k,∅⟩

theorem knownModules_expire_sample :
    TimesAscend ([cartSeen 0] ++ [nothingSeen 1]) ∧ (∀ c ∈ [cartSeen 0] ++ [nothingSeen 1],lit "all_pages" ∉ c.modules) ∧
      ∀ module,module ∈ knownModulesAfter ([cartSeen 0] ++ [nothingSeen 1]) ↔
        SeenWithinDay ([cartSeen 0] ++ [nothingSeen 1]) (dayTime 1) module ∨
        module = lit "all_pages" ∧ ∃ other,SeenWithinDay ([cartSeen 0] ++ [nothingSeen 1]) (dayTime 1) other := by
  have htimes : TimesAscend ([cartSeen 0] ++ [nothingSeen 1]) := by decide
  have hcart : lit "::Cart" ∈ (cartSeen 0).modules := Std.ExtTreeMap.mem_insert_self
  have hpages : ∀ c ∈ [cartSeen 0] ++ [nothingSeen 1],lit "all_pages" ∉ c.modules := by
    intro c hc
    rcases List.mem_cons.mp hc with rfl | hc
    · decide +kernel
    · rw [List.mem_singleton.mp hc]
      exact Std.ExtTreeMap.not_mem_empty
  refine ⟨htimes,hpages,(knownModules_expire_iff htimes hpages).mpr fun _ => ?_⟩
  exact ⟨lit "::Cart",cartSeen 0,List.mem_cons_self,hcart,by decide⟩

/-- Two days after the only module was seen, the summary is still there. -/
theorem knownModules_summary_stays :
    lit "all_pages" ∈ knownModulesAfter ([cartSeen 0] ++ [nothingSeen 1] ++ [nothingSeen 2]) ∧
      ¬∃ module,SeenWithinDay ([cartSeen 0] ++ [nothingSeen 1] ++ [nothingSeen 2]) (dayTime 2) module := by
  have hseen : Lingers ([] ++ [cartSeen 0]) := .seen [] fun h =>
    Std.ExtTreeMap.not_mem_empty (h ▸ Std.ExtTreeMap.mem_insert_self : lit "::Cart" ∈ (∅ : ZHash Unit))
  have hlingers : Lingers ([] ++ [cartSeen 0] ++ [nothingSeen 1] ++ [nothingSeen 2]) :=
    .refreshed (.refreshed hseen (by decide)) (by decide)
  refine ⟨(all_pages_mem_iff (by decide)).mpr hlingers,?_⟩
  rintro ⟨module,c,hc,hmem,hday⟩
  simp only [List.cons_append,List.nil_append,List.mem_cons,List.not_mem_nil,or_false] at hc
  rcases hc with rfl | rfl | rfl
  · exact absurd hday (by decide)
  · exact Std.ExtTreeMap.not_mem_empty hmem
  · exact Std.ExtTreeMap.not_mem_empty hmem

end Logjam.Importer
