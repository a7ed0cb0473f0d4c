import Logjam.Graylog.PageNames
import Logjam.Importer.Filing

/-! The buffer in which the name of a module is composed. It has as many bytes as the page and a
terminator, while the name is the start of the page with two colons in front of it. -/
namespace Logjam.Importer
open Logjam.Library
open Logjam.Graylog (gelfAction completed completed_form strchr_eq_none getElem?_of_strchr)

variable {lib : JsonLib} {request : JObject} {page : Bytes}

/-- The offsets of module_str that processor_setup_module and extract_module write to: those of the
colons with their terminator, those the start of the page is copied to, and that of the new terminator. -/
def moduleWrites (page : Bytes) : List ℕ :=
  let copied (p : ℕ) := List.range' 2 p ++ [p+2]
  List.range 3 ++
    match strchr page 58 with
    | some p => if p ≠ 0 then copied p else []
    | none =>
      match strchr page 35 with
      | some p => copied p
      | none => []

/-- The pages that modules are made from. -/
inductive PageOf (lib : JsonLib) (request : JObject) : Bytes → Prop
  | request {page : Bytes} {rest : JObject} (h : processorSetupPage lib request = .ok (page,rest)) :
      PageOf lib request page
  | jsException {page : Bytes} (h : extractPageForJse lib request = .ok page) : PageOf lib request page
  | gelf : PageOf lib request (gelfAction lib request)

/-! What the normalisers guarantee. -/

lemma processorSetupPage_normalised {rest : JObject} (h : processorSetupPage lib request = .ok (page,rest)) :
    Normalised page := by
  unfold processorSetupPage at h
  obtain ⟨name,-,h⟩ := bind_eq_ok_iff.mp h
  have hform := completed_form name
  unfold completed at hform
  split at h
  · next longer hlonger =>
    obtain ⟨rfl,-⟩ := Prod.mk.inj (Except.ok.inj h)
    rwa [hlonger] at hform
  · next hnone =>
    obtain ⟨rfl,-⟩ := Prod.mk.inj (Except.ok.inj h)
    rwa [hnone] at hform

lemma PageOf.normalised (h : PageOf lib request page) : Normalised page := by
  cases h with
  | request h => exact processorSetupPage_normalised h
  | jsException h => exact extractPageForJse_normalised h
  | gelf => exact completed_form _

/-! The buffer. -/

lemma forall_mem_colons {bound : ℕ} : (∀ offset ∈ List.range 3 ++ [],offset < bound) ↔ 2 < bound := by
  simp only [List.append_nil,List.mem_range]
  constructor
  · intro h
    exact h 2 (by omega)
  · intro h offset hoffset
    omega

lemma forall_mem_copied {p bound : ℕ} :
    (∀ offset ∈ List.range 3 ++ (List.range' 2 p ++ [p+2]),offset < bound) ↔ p+2 < bound := by
  constructor
  · intro h
    exact h (p+2) (by simp)
  · intro h offset hoffset
    simp only [List.mem_append,List.mem_range,List.mem_range'_1,List.mem_singleton] at hoffset
    omega

/-- The name of a module fits if and only if all bytes written while it is composed are inside of the buffer. -/
theorem moduleStr_isOk_iff (page : Bytes) :
    (moduleStr page).isOk = true ↔ ∀ offset ∈ moduleWrites page,offset < page.length+1 := by
  have hsprintf (size : ℕ) (text : Bytes) : (sprintf size text).isOk = true ↔ text.length < size := by
    unfold sprintf
    split_ifs with h
    · exact iff_of_true rfl h
    · exact iff_of_false Bool.false_ne_true h
  have hcopied {p : ℕ} {c : UInt8} (h : strchr page c = some p) : (lit "::" ++ page.take p).length = p+2 := by
    obtain ⟨hp,-⟩ := List.findIdx?_eq_some_iff_getElem.mp h
    rw [List.length_append,List.length_take,Nat.min_eq_left hp.le,Nat.add_comm]
    rfl
  unfold moduleStr moduleWrites
  rw [hsprintf]
  cases hcolon : strchr page 58 with
  | some p =>
    by_cases hp : p = 0
    · simp only [hp,ne_eq,not_true_eq_false,if_false,forall_mem_colons]
      exact Iff.rfl
    · simp only [hp,ne_eq,not_false_eq_true,if_true,hcopied hcolon,forall_mem_copied]
  | none =>
    cases hhash : strchr page 35 with
    | some p => simp only [hcopied hhash,forall_mem_copied]
    | none =>
      simp only [forall_mem_colons]
      exact Iff.rfl

/-- For the pages there are, the name fits unless the first colon is the last byte of the page. -/
lemma moduleWrites_fit_of_normalised (h : Normalised page) :
    (∀ offset ∈ moduleWrites page,offset < page.length+1) ↔ strchr page 58 ≠ some (page.length-1) := by
  obtain ⟨hmem,hlast⟩ := h
  obtain ⟨i,hi,hhash⟩ := List.mem_iff_getElem.mp hmem
  have hinner : i ≠ page.length-1 := by
    rintro rfl
    rw [List.getLast?_eq_getElem?,List.getElem?_eq_getElem hi] at hlast
    exact hlast (congrArg some hhash)
  unfold moduleWrites
  cases hcolon : strchr page 58 with
  | some p =>
    obtain ⟨hp,-⟩ := List.findIdx?_eq_some_iff_getElem.mp hcolon
    by_cases hzero : p = 0
    · subst hzero
      simp only [ne_eq,not_true_eq_false,if_false,forall_mem_colons,Option.some.injEq]
      omega
    · simp only [hzero,ne_eq,not_false_eq_true,if_true,forall_mem_copied,Option.some.injEq]
      omega
  | none =>
    -- without a colon the module ends at the first hash sign, which is not the last byte
    cases hfirst : strchr page 35 with
    | some p =>
      have hp := getElem?_of_strchr hfirst
      have hne : p ≠ page.length-1 := by
        rintro rfl
        exact hlast (List.getLast?_eq_getElem?.trans hp)
      have hlt := (List.getElem?_eq_some_iff.mp hp).1
      simp only [forall_mem_copied,ne_eq,reduceCtorEq,not_false_eq_true,iff_true]
      omega
    | none => exact absurd hmem (strchr_eq_none.mp hfirst)

/-- No page comes out of a normaliser for which anything else than a trailing colon matters. -/
theorem moduleWrites_fit_iff (h : PageOf lib request page) :
    (∀ offset ∈ moduleWrites page,offset < page.length+1) ↔ strchr page 58 ≠ some (page.length-1) :=
  moduleWrites_fit_of_normalised h.normalised

theorem moduleWrites_fit_sample :
    (∀ offset ∈ moduleWrites (lit "Shop::Cart#show"),offset < (lit "Shop::Cart#show").length+1) ↔
      strchr (lit "Shop::Cart#show") 58 ≠ some ((lit "Shop::Cart#show").length-1) :=
  have hpage : PageOf JsonLib.blank [(lit "action",.str (lit "Shop::Cart#show"))] (lit "Shop::Cart#show") := .gelf
  moduleWrites_fit_iff hpage

/-- The terminator of the name is written behind the buffer. -/
theorem moduleWrites_overflow :
    PageOf JsonLib.blank [(lit "action",.str (lit "a#b:"))] (lit "a#b:") ∧
      ¬∀ offset ∈ moduleWrites (lit "a#b:"),offset < (lit "a#b:").length+1 :=
  ⟨.request rfl,by decide⟩

end Logjam.Importer
