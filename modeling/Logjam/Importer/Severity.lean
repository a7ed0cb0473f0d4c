import Logjam.Importer.Request

/-! The severity of a request whose message does not say it is read off from the log lines. Unknown levels are
sorted out after the maximum has been taken, not before. -/
namespace Logjam.Importer

variable {lib : JsonLib} {request : JObject} {lines : List Json}

/-- The level of a line, if the line is well formed. -/
def lineLevel (lib : JsonLib) : Json → Option ℤ
  | .arr (.null::_) => none
  | .arr (v::_) => some (jsonObjectGetInt lib v)
  | _ => none

def levels (lib : JsonLib) (lines : List Json) : List ℤ := lines.filterMap (lineLevel lib)

def KnownLevel (level : ℤ) : Prop := 0 ≤ level ∧ level ≤ 5

instance (level : ℤ) : Decidable (KnownLevel level) := inferInstanceAs (Decidable (_ ∧ _))

/-- The highest of the known levels, by default that of an info. -/
def highestKnown (lib : JsonLib) (lines : List Json) : ℤ := (((levels lib lines).filter (KnownLevel ·)).max?).getD 1

/-! The loop. -/

/-- The level after the loop. -/
def highest (lib : JsonLib) (lines : List Json) : ℤ := (levels lib lines).foldl max (-1)

lemma foldl_levels (lib : JsonLib) {step : ℤ → Json → ℤ} (hstep : ∀ level line,step level line = (lineLevel lib line).elim level (max level))
    (lines : List Json) (level : ℤ) : lines.foldl step level = (levels lib lines).foldl max level := by
  induction lines generalizing level with
  | nil => rfl
  | cons line lines ih =>
    rw [List.foldl_cons,ih,hstep,levels,levels,List.filterMap_cons]
    cases lineLevel lib line with
    | none => rfl
    | some new => rfl

lemma extractSeverityFromLinesObject_eq (lib : JsonLib) (lines : List Json) :
    extractSeverityFromLinesObject lib (.arr lines) = if highest lib lines > 5 then -1 else highest lib lines := by
  unfold extractSeverityFromLinesObject
  dsimp only
  rw [foldl_levels lib]
  · rfl
  · intro level line
    split
    · rfl
    · next v tail hnull =>
      have hlevel : lineLevel lib (.arr (v::tail)) = some (jsonObjectGetInt lib v) := by
        cases v with
        | null => exact absurd rfl hnull
        | _ => rfl
      rw [hlevel,Option.elim_some]
      split_ifs with hgt
      · exact (max_eq_right hgt.le).symm
      · exact (max_eq_left (not_lt.mp hgt)).symm
    · next hnull hother =>
      have hlevel : lineLevel lib line = none := by
        unfold lineLevel
        split
        · rfl
        · next v tail _ => exact absurd rfl (hother v tail)
        · rfl
      rw [hlevel,Option.elim_none]

lemma highest_spec (lib : JsonLib) (lines : List Json) :
    (highest lib lines = -1 ∨ highest lib lines ∈ levels lib lines) ∧ -1 ≤ highest lib lines ∧
      ∀ level ∈ levels lib lines,level ≤ highest lib lines := by
  have hmax : (-1::levels lib lines).max? = some (highest lib lines) := List.max?_cons'
  obtain ⟨hmem,hle⟩ := List.max?_eq_some_iff.mp hmax
  rw [List.forall_mem_cons] at hle
  exact ⟨List.mem_cons.mp hmem,hle⟩

lemma highestKnown_eq {level : ℤ} (hmem : level ∈ levels lib lines) (hknown : KnownLevel level)
    (hle : ∀ other ∈ levels lib lines,KnownLevel other → other ≤ level) : highestKnown lib lines = level := by
  have hmax : ((levels lib lines).filter (KnownLevel ·)).max? = some level := by
    rw [List.max?_eq_some_iff]
    simp only [List.mem_filter,decide_eq_true_eq]
    exact ⟨⟨hmem,hknown⟩,fun other hother => hle other hother.1 hother.2⟩
  rw [highestKnown,hmax,Option.getD_some]

lemma highestKnown_of_forall (h : ∀ level ∈ levels lib lines,¬KnownLevel level) : highestKnown lib lines = 1 := by
  have hnone : (levels lib lines).filter (KnownLevel ·) = [] := by
    rw [List.filter_eq_nil_iff]
    exact fun level hlevel => by simpa using h level hlevel
  rw [highestKnown,hnone]
  rfl

/-- One level that is too high hides all the others. -/
theorem processorSetupSeverity_eq (lib : JsonLib) (hseverity : request.lookup (lit "severity") = none)
    (hlines : request.lookup (lit "lines") = some (.arr lines)) :
    (processorSetupSeverity lib request).1 =
      if ∃ level ∈ levels lib lines,5 < level then 1 else highestKnown lib lines := by
  obtain ⟨hmem,hlow,hle⟩ := highest_spec lib lines
  have hsetup : (processorSetupSeverity lib request).1 =
      if (if highest lib lines > 5 then -1 else highest lib lines) ≠ -1 then
        if highest lib lines > 5 then -1 else highest lib lines else 1 := by
    rw [processorSetupSeverity,hseverity]
    simp only [hlines,extractSeverityFromLinesObject_eq]
  rw [hsetup]
  by_cases hhigh : ∃ level ∈ levels lib lines,5 < level
  · obtain ⟨level,hlevel,hgt⟩ := hhigh
    have hfive : highest lib lines > 5 := hgt.trans_le (hle level hlevel)
    rw [if_pos hfive,if_neg (not_not.mpr rfl),if_pos ⟨level,hlevel,hgt⟩]
  · push Not at hhigh
    rw [if_neg (not_exists.mpr fun level h => absurd (hhigh level h.1) (by omega))]
    have hfive : ¬highest lib lines > 5 := by
      rcases hmem with hnone | hmem
      · omega
      · exact not_lt.mpr (hhigh _ hmem)
    rw [if_neg hfive]
    by_cases hnone : highest lib lines = -1
    · -- nothing above the start value has been found
      have hunknown : ∀ level ∈ levels lib lines,¬KnownLevel level := by
        intro level hlevel hknown
        have hlast := hle level hlevel
        have hzero := hknown.1
        omega
      rw [if_neg (not_not.mpr hnone),highestKnown_of_forall hunknown]
    · have hknown : KnownLevel (highest lib lines) := ⟨by omega,by omega⟩
      rw [if_pos hnone,highestKnown_eq (hmem.resolve_left hnone) hknown fun level hlevel _ => hle level hlevel]

/-! Lines that are added. -/

/-- A well-formed line whose level is not known. -/
def UnknownLine (lib : JsonLib) (line : Json) : Prop := ∃ level,lineLevel lib line = some level ∧ ¬KnownLevel level

/-- Only the known levels that occur matter. -/
lemma highestKnown_congr {more : List Json} (h : ∀ level,KnownLevel level → (level ∈ levels lib more ↔ level ∈ levels lib lines)) :
    highestKnown lib more = highestKnown lib lines := by
  have hmem (level : ℤ) : level ∈ (levels lib more).filter (KnownLevel ·) ↔
      level ∈ (levels lib lines).filter (KnownLevel ·) := by
    simp only [List.mem_filter,decide_eq_true_eq]
    exact and_congr_left (h level)
  have hmax : ((levels lib more).filter (KnownLevel ·)).max? = ((levels lib lines).filter (KnownLevel ·)).max? := by
    ext level
    simp only [List.max?_eq_some_iff,hmem]
  rw [highestKnown,hmax,highestKnown]

lemma mem_levels_of_perm (lib : JsonLib) {added more : List Json} (h : more.Perm (added ++ lines)) (level : ℤ) :
    level ∈ levels lib more ↔ level ∈ levels lib added ∨ level ∈ levels lib lines := by
  rw [levels,(h.filterMap _).mem_iff,List.filterMap_append,List.mem_append,levels,levels]

lemma not_known_of_mem {added : List Json} (h : ∀ line ∈ added,UnknownLine lib line) {level : ℤ}
    (hlevel : level ∈ levels lib added) : ¬KnownLevel level := by
  obtain ⟨line,hline,heq⟩ := List.mem_filterMap.mp hlevel
  obtain ⟨level',heq',hunknown⟩ := h line hline
  exact Option.some.inj (heq.symm.trans heq') ▸ hunknown

lemma forall_le_iff {levels : List ℤ} : (∀ level ∈ levels,level ≤ 5) ↔ ¬∃ level ∈ levels,5 < level := by
  push Not
  rfl

/-- A severity that is overruled by some levels is still the same if it was overruled before, or has the value
that they give it. -/
lemma overruled_eq_iff {p q : Prop} [Decidable p] [Decidable q] (level info : ℤ) :
    (if p ∨ q then info else level) = (if q then info else level) ↔ ¬p ∨ q ∨ level = info := by
  by_cases hq : q
  · rw [if_pos (.inr hq),if_pos hq]
    exact iff_of_true rfl (.inr (.inl hq))
  · rw [if_neg hq,or_iff_right hq]
    by_cases hp : p
    · rw [if_pos (.inl hp),or_iff_right (not_not.mpr hp)]
      exact eq_comm
    · rw [if_neg (not_or.mpr ⟨hp,hq⟩)]
      exact iff_of_true rfl (.inl hp)

/-- The severity is the highest known level unless some level is above all known ones, and lines with such
a level change it. -/
theorem processorSetupSeverity_highest_iff (lib : JsonLib) (hseverity : request.lookup (lit "severity") = none)
    (hlines : request.lookup (lit "lines") = some (.arr lines)) :
    ((processorSetupSeverity lib request).1 = highestKnown lib lines ↔
      (∀ level ∈ levels lib lines,level ≤ 5) ∨ highestKnown lib lines = 1) ∧
    ∀ added more : List Json,(∀ line ∈ added,UnknownLine lib line) → more.Perm (added ++ lines) →
      ((processorSetupSeverity lib (request.add (lit "lines") (.arr more))).1 = (processorSetupSeverity lib request).1 ↔
        (∀ level ∈ levels lib added,level ≤ 5) ∨ (∃ level ∈ levels lib lines,5 < level) ∨ highestKnown lib lines = 1) := by
  have heq := processorSetupSeverity_eq lib hseverity hlines
  refine ⟨?_,fun added more hadded hmore => ?_⟩
  · rw [heq,forall_le_iff]
    simpa using overruled_eq_iff (p := ∃ level ∈ levels lib lines,5 < level) (q := False) (highestKnown lib lines) 1
  · have hseverity' : (request.add (lit "lines") (.arr more)).lookup (lit "severity") = none := by
      rw [JObject.lookup_add,if_neg (by decide),hseverity]
    have hlines' : (request.add (lit "lines") (.arr more)).lookup (lit "lines") = some (.arr more) := by
      rw [JObject.lookup_add,if_pos rfl]
    have hmem := mem_levels_of_perm lib hmore
    have hknown : highestKnown lib more = highestKnown lib lines := by
      refine highestKnown_congr fun level hknown => (hmem level).trans (or_iff_right fun hlevel => ?_)
      exact not_known_of_mem hadded hlevel hknown
    rw [processorSetupSeverity_eq lib hseverity' hlines',heq,hknown,forall_le_iff]
    simp only [hmem,or_and_right,exists_or]
    exact overruled_eq_iff _ _

/-- A line with the given level. -/
def lineOf (level : ℤ) : Json := .arr [.int level,.str (lit "10:15:30"),.str (lit "done")]

theorem processorSetupSeverity_highest_sample :
    (processorSetupSeverity JsonLib.blank [(lit "lines",.arr [lineOf 2,.null,lineOf 4])]).1 =
        highestKnown JsonLib.blank [lineOf 2,.null,lineOf 4] :=
  (processorSetupSeverity_highest_iff JsonLib.blank rfl rfl).1.mpr (.inl (by decide))

/-- A fatal error, and a line of a level above all known ones. -/
theorem processorSetupSeverity_unknown_level :
    (processorSetupSeverity JsonLib.blank [(lit "lines",.arr [lineOf 4,lineOf 7])]).1 = 1 ∧
      highestKnown JsonLib.blank [lineOf 4,lineOf 7] = 4 ∧
      (processorSetupSeverity JsonLib.blank [(lit "lines",.arr [lineOf 4])]).1 = 4 := by
  decide

end Logjam.Importer
