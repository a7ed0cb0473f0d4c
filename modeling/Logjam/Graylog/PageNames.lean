import Logjam.Exporter.Collector

/-! The page a message is about, as the importer, the GELF converter and the exporter name it. -/
namespace Logjam.Graylog
open Logjam.Importer (completePage processorSetupPage extractPageForJse)
open Logjam.Exporter (GoLib extractString extractAction)

def unknownPage : Bytes := lit "Unknown#unknown_method"

/-- The action of a GELF message; logjam_action is not looked at. -/
def gelfAction (lib : JsonLib) (request : JObject) : Bytes :=
  let action := match request.lookup (lit "action") with
    | some obj => (jsonObjectGetString lib obj).getD []
    | none => []
  (completePage action).getD action

/-- The names that are completed to that of the unknown page. -/
def unknownNames : List Bytes := [lit "Unknown",lit "Unknown#",unknownPage]

/-- All components give a message the same page, of the form class#method. -/
def PagesAgree (lib : JsonLib) (go : GoLib) (request : JObject) : Prop :=
  ∃ page rest, processorSetupPage lib request = .ok (page,rest) ∧ gelfAction lib request = page ∧
    extractAction go request = page ∧
    (request.lookup (lit "action") = none → request.lookup (lit "logjam_action") ≠ none →
      extractPageForJse lib request = .ok page) ∧
    35 ∈ page ∧ page.getLast? ≠ some 35

/-! Completing a name. -/

def completed (name : Bytes) : Bytes := (completePage name).getD name

/-- The exporter's way looks at the first hash only. -/
def completedByFirst (name : Bytes) : Bytes :=
  match strchr name 35 with
  | none => name ++ lit "#unknown_method"
  | some i => if i = name.length-1 then name ++ lit "unknown_method" else name

lemma strchr_eq_none {name : Bytes} : strchr name 35 = none ↔ 35 ∉ name := by
  rw [strchr,List.findIdx?_eq_none_iff]
  simp only [beq_eq_false_iff_ne]
  exact ⟨fun h hmem => h 35 hmem rfl,fun h x hx hx35 => h (hx35 ▸ hx)⟩

lemma getElem?_of_strchr {name : Bytes} {i : ℕ} (h : strchr name 35 = some i) : name[i]? = some 35 := by
  obtain ⟨hi,hname,-⟩ := List.findIdx?_eq_some_iff_getElem.mp h
  rw [List.getElem?_eq_getElem hi,eq_of_beq hname]

lemma completed_of_notMem {name : Bytes} (hne : name ≠ []) (h : 35 ∉ name) :
    completed name = name ++ lit "#unknown_method" := by
  rw [completed,completePage,if_neg hne,if_pos (strchr_eq_none.mpr h)]
  rfl

lemma completed_of_getLast {name : Bytes} (h : name.getLast? = some 35) :
    completed name = name ++ lit "unknown_method" := by
  have hne : name ≠ [] := fun hnil => nomatch (hnil ▸ h : ([] : Bytes).getLast? = some 35)
  have hmem : 35 ∈ name := List.mem_of_getLast? h
  rw [completed,completePage,if_neg hne,if_neg (fun hnone => strchr_eq_none.mp hnone hmem),if_pos h]
  rfl

lemma completed_of_mem {name : Bytes} (hmem : 35 ∈ name) (h : name.getLast? ≠ some 35) :
    completed name = name := by
  rw [completed,completePage,if_neg (List.ne_nil_of_mem hmem),
    if_neg (fun hnone => strchr_eq_none.mp hnone hmem),if_neg h]
  rfl

/-- What is asked of the name of a page. -/
lemma completed_form (name : Bytes) : 35 ∈ completed name ∧ (completed name).getLast? ≠ some 35 := by
  by_cases hne : name = []
  · subst hne
    decide
  by_cases hmem : 35 ∈ name
  · by_cases hlast : name.getLast? = some 35
    · rw [completed_of_getLast hlast]
      refine ⟨List.mem_append_left _ hmem,?_⟩
      rw [List.getLast?_append]
      exact (by decide : (some 100 : Option UInt8) ≠ some 35)
    · rw [completed_of_mem hmem hlast]
      exact ⟨hmem,hlast⟩
  · rw [completed_of_notMem hne hmem]
    refine ⟨List.mem_append_right _ (by decide),?_⟩
    rw [List.getLast?_append]
    exact (by decide : (some 100 : Option UInt8) ≠ some 35)

lemma completed_eq_unknownPage_iff {name : Bytes} :
    completed name = unknownPage ↔ name = [] ∨ name ∈ unknownNames := by
  constructor
  · intro h
    by_cases hne : name = []
    · exact .inl hne
    right
    by_cases hmem : 35 ∈ name
    · by_cases hlast : name.getLast? = some 35
      · rw [completed_of_getLast hlast] at h
        have hname : name = lit "Unknown#" := List.append_cancel_right (h : name ++ _ = lit "Unknown#" ++ lit "unknown_method")
        simp [hname,unknownNames]
      · rw [completed_of_mem hmem hlast] at h
        simp [h,unknownNames]
    · rw [completed_of_notMem hne hmem] at h
      have hname : name = lit "Unknown" := List.append_cancel_right (h : name ++ _ = lit "Unknown" ++ lit "#unknown_method")
      simp [hname,unknownNames]
  · rintro (rfl | h)
    · rfl
    · simp only [unknownNames,List.mem_cons,List.not_mem_nil,or_false] at h
      rcases h with rfl | rfl | rfl <;> decide

lemma completedByFirst_eq_unknownPage_iff {name : Bytes} :
    completedByFirst name = unknownPage ↔ name ∈ unknownNames := by
  constructor
  · intro h
    unfold completedByFirst at h
    split at h
    · have hname : name = lit "Unknown" := List.append_cancel_right (h : name ++ _ = lit "Unknown" ++ lit "#unknown_method")
      simp [hname,unknownNames]
    · split at h
      · have hname : name = lit "Unknown#" := List.append_cancel_right (h : name ++ _ = lit "Unknown#" ++ lit "unknown_method")
        simp [hname,unknownNames]
      · simp [h,unknownNames]
  · intro h
    simp only [unknownNames,List.mem_cons,List.not_mem_nil,or_false] at h
    rcases h with rfl | rfl | rfl <;> decide

/-- The two ways differ on names with several hashes, the last of them at the end. -/
lemma completedByFirst_eq_iff {name : Bytes} (hne : name ≠ []) :
    completedByFirst name = completed name ↔
      (name.getLast? = some 35 → strchr name 35 = some (name.length-1)) := by
  unfold completedByFirst
  cases hfirst : strchr name 35 with
  | none =>
    have hmem := strchr_eq_none.mp hfirst
    simp only [completed_of_notMem hne hmem,true_iff]
    exact fun hlast => absurd (List.mem_of_getLast? hlast) hmem
  | some i =>
    have hi := getElem?_of_strchr hfirst
    by_cases hlast : name.getLast? = some 35
    · simp only [completed_of_getLast hlast,hlast,forall_const,Option.some.injEq]
      by_cases hend : i = name.length-1
      · simp [hend]
      · simp [hend,lit]
    · have hend : i ≠ name.length-1 := by
        rintro rfl
        exact hlast (List.getLast?_eq_getElem?.trans hi)
      simp [completed_of_mem (List.mem_of_getElem? hi) hlast,hend,hlast]

lemma mem_completedByFirst {name : Bytes} {c : UInt8} (h : c ∈ name) : c ∈ completedByFirst name := by
  unfold completedByFirst
  split
  · exact List.mem_append_left _ h
  · split
    · exact List.mem_append_left _ h
    · exact h

lemma zero_notMem_completed {name : Bytes} (h : 0 ∉ name) : 0 ∉ completed name := by
  by_cases hne : name = []
  · subst hne
    decide
  by_cases hmem : 35 ∈ name
  · by_cases hlast : name.getLast? = some 35
    · rw [completed_of_getLast hlast,List.mem_append,not_or]
      exact ⟨h,by decide⟩
    · rwa [completed_of_mem hmem hlast]
  · rw [completed_of_notMem hne hmem,List.mem_append,not_or]
    exact ⟨h,by decide⟩

/-- The exporter keeps what follows a NUL, the C programs do not. -/
lemma completedByFirst_eq_completed_cstr_iff {name : Bytes} (hne : name ≠ []) :
    completedByFirst name = completed (cstr name) ↔
      0 ∉ name ∧ (name.getLast? = some 35 → strchr name 35 = some (name.length-1)) := by
  by_cases hzero : 0 ∈ name
  · refine iff_of_false (fun h => ?_) fun h => h.1 hzero
    exact zero_notMem_completed (zero_notMem_cstr name) (h ▸ mem_completedByFirst hzero)
  · rw [cstr_of_notMem hzero,completedByFirst_eq_iff hne]
    exact ⟨fun h => ⟨hzero,h⟩,fun h => h.2⟩

/-! What each component does with the members of a message. -/

section
variable {lib : JsonLib} {go : GoLib} {request : JObject} {action name : Bytes}

lemma processorSetupPage_action (lib : JsonLib) (h : request.lookup (lit "action") = some (.str action)) :
    ∃ rest, processorSetupPage lib request = .ok (completed (cstr action),rest) := by
  unfold processorSetupPage
  simp only [h,jsonString,jsonObjectGetString,bind,Except.bind,pure,Except.pure,completed]
  cases completePage (cstr action) with
  | none => exact ⟨_,rfl⟩
  | some longer => exact ⟨_,rfl⟩

lemma processorSetupPage_logjamAction (lib : JsonLib) (h : request.lookup (lit "action") = none)
    (hlogjam : request.lookup (lit "logjam_action") = some (.str name)) :
    ∃ rest, processorSetupPage lib request = .ok (completed (cstr name),rest) := by
  unfold processorSetupPage
  simp only [h,hlogjam,jsonString,jsonObjectGetString,bind,Except.bind,pure,Except.pure,completed]
  cases completePage (cstr name) with
  | none => exact ⟨_,rfl⟩
  | some longer => exact ⟨_,rfl⟩

lemma processorSetupPage_none (lib : JsonLib) (h : request.lookup (lit "action") = none)
    (hlogjam : request.lookup (lit "logjam_action") = none) :
    ∃ rest, processorSetupPage lib request = .ok (unknownPage,rest) := by
  unfold processorSetupPage
  simp only [h,hlogjam]
  exact ⟨_,rfl⟩

lemma gelfAction_action (h : request.lookup (lit "action") = some (.str action)) :
    gelfAction lib request = completed (cstr action) := by
  rw [gelfAction,h]
  rfl

lemma gelfAction_none (h : request.lookup (lit "action") = none) : gelfAction lib request = unknownPage := by
  rw [gelfAction,h]
  rfl

lemma extractString_str {key value : Bytes} (h : request.lookup key = some (.str value)) (d : Bytes) :
    extractString go request key d = value := by rw [extractString,h]

lemma extractString_none {key : Bytes} (h : request.lookup key = none) (d : Bytes) :
    extractString go request key d = d := by rw [extractString,h]

lemma extractAction_eq : extractAction go request = completedByFirst
    (if extractString go request (lit "action") [] = [] then
      if extractString go request (lit "logjam_action") [] = [] then unknownPage
      else extractString go request (lit "logjam_action") []
    else extractString go request (lit "action") []) := rfl

/-- The exporter takes an empty action for none. -/
lemma extractAction_logjamAction (h : extractString go request (lit "action") [] = [])
    (hlogjam : request.lookup (lit "logjam_action") = some (.str name)) :
    extractAction go request = unknownPage ↔ name = [] ∨ name ∈ unknownNames := by
  rw [extractAction_eq,if_pos h,extractString_str hlogjam]
  by_cases hname : name = []
  · rw [if_pos hname,completedByFirst_eq_unknownPage_iff]
    exact iff_of_true (by decide) (.inl hname)
  · rw [if_neg hname,completedByFirst_eq_unknownPage_iff,or_iff_right hname]

lemma extractAction_unknown (h : extractString go request (lit "action") [] = [])
    (hlogjam : request.lookup (lit "logjam_action") = none) : extractAction go request = unknownPage := by
  rw [extractAction_eq,if_pos h,extractString_none hlogjam,if_pos rfl]
  decide

/-- Exceptions of browsers have no action; an empty logjam_action is completed to a bare method. -/
lemma extractPageForJse_eq (hlogjam : request.lookup (lit "logjam_action") = some (.str name)) :
    extractPageForJse lib request = .ok (if cstr name = [] then lit "#unknown_method" else completed (cstr name)) := by
  unfold extractPageForJse
  simp only [hlogjam,jsonString,jsonObjectGetString,bind,Except.bind,pure,Except.pure]
  by_cases hne : cstr name = []
  · rw [hne]
    rfl
  rw [if_neg hne,completed,completePage,if_neg hne]
  split
  · rfl
  · split <;> rfl

/-- With an action, only the exporter can differ. -/
lemma pagesAgree_action (h : request.lookup (lit "action") = some (.str action)) :
    PagesAgree lib go request ↔ extractAction go request = completed (cstr action) := by
  obtain ⟨rest,hsetup⟩ := processorSetupPage_action lib h
  constructor
  · rintro ⟨page,rest',hsetup',-,hexporter,-⟩
    obtain ⟨rfl,-⟩ := Prod.mk.inj (Except.ok.inj (hsetup.symm.trans hsetup'))
    exact hexporter
  · intro hexporter
    exact ⟨_,rest,hsetup,gelfAction_action h,hexporter,fun hnone => (nomatch h.symm.trans hnone),
      completed_form _⟩

/-- Without action or logjam_action all agree. -/
lemma pagesAgree_none (h : request.lookup (lit "action") = none)
    (hlogjam : request.lookup (lit "logjam_action") = none) : PagesAgree lib go request := by
  obtain ⟨rest,hsetup⟩ := processorSetupPage_none lib h hlogjam
  exact ⟨_,rest,hsetup,gelfAction_none h,extractAction_unknown (extractString_none h []) hlogjam,
    fun _ hsome => absurd hlogjam hsome,by decide,by decide⟩

/-- The GELF converter knows no logjam_action. -/
lemma pagesAgree_logjamAction (h : request.lookup (lit "action") = none)
    (hlogjam : request.lookup (lit "logjam_action") = some (.str name)) :
    PagesAgree lib go request ↔ name ∈ unknownNames := by
  obtain ⟨rest,hsetup⟩ := processorSetupPage_logjamAction lib h hlogjam
  have hexporter : extractAction go request = unknownPage ↔ name = [] ∨ name ∈ unknownNames :=
    extractAction_logjamAction (extractString_none h []) hlogjam
  constructor
  · rintro ⟨page,rest',-,hgelf,hpage,hjse,-⟩
    obtain rfl : unknownPage = page := (gelfAction_none h).symm.trans hgelf
    refine (hexporter.mp hpage).resolve_left ?_
    rintro rfl
    have hbare := (extractPageForJse_eq hlogjam).symm.trans (hjse h (by simp [hlogjam]))
    exact absurd (Except.ok.inj hbare) (by decide)
  · intro hname
    have hzero : 0 ∉ name := by
      simp only [unknownNames,List.mem_cons,List.not_mem_nil,or_false] at hname
      rcases hname with rfl | rfl | rfl <;> decide
    have hne : name ≠ [] := fun hnil => absurd (hnil ▸ hname : [] ∈ unknownNames) (by decide)
    have hcompleted : completed (cstr name) = unknownPage := by
      rw [cstr_of_notMem hzero,completed_eq_unknownPage_iff]
      exact .inr hname
    refine ⟨unknownPage,rest,hcompleted ▸ hsetup,gelfAction_none h,hexporter.mpr (.inr hname),fun _ _ => ?_,
      by decide,by decide⟩
    rw [extractPageForJse_eq hlogjam,cstr_of_notMem hzero,if_neg hne,← cstr_of_notMem hzero,hcompleted]

/-- The components agree on messages with a proper action. Without one they agree if the name in
logjam_action, which the GELF converter does not read, is that of the unknown page. -/
theorem pagesAgree_iff (lib : JsonLib) (go : GoLib)
    (haction : ∀ v, request.lookup (lit "action") = some v → ∃ s, v = .str s)
    (hlogjam : ∀ v, request.lookup (lit "logjam_action") = some v → ∃ s, v = .str s) :
    PagesAgree lib go request ↔
      (∀ a, request.lookup (lit "action") = some (.str a) → a ≠ [] →
        0 ∉ a ∧ (a.getLast? = some 35 → strchr a 35 = some (a.length-1))) ∧
      ∀ l, request.lookup (lit "logjam_action") = some (.str l) →
        (request.lookup (lit "action") = some (.str []) → l = [] ∨ l ∈ unknownNames) ∧
        (request.lookup (lit "action") = none → l ∈ unknownNames) := by
  cases ha : request.lookup (lit "action") with
  | none =>
    simp only [reduceCtorEq,IsEmpty.forall_iff,implies_true,true_and,forall_const]
    cases hl : request.lookup (lit "logjam_action") with
    | none => exact iff_of_true (pagesAgree_none ha hl) nofun
    | some v =>
      obtain ⟨name,rfl⟩ := hlogjam v hl
      rw [pagesAgree_logjamAction ha hl]
      simp
  | some v =>
    obtain ⟨action,rfl⟩ := haction v ha
    rw [pagesAgree_action ha]
    by_cases hne : action = []
    · subst hne
      have hempty : completed (cstr []) = unknownPage := rfl
      rw [hempty]
      cases hl : request.lookup (lit "logjam_action") with
      | none => simp [extractAction_unknown (extractString_str ha []) hl]
      | some v =>
        obtain ⟨name,rfl⟩ := hlogjam v hl
        rw [extractAction_logjamAction (extractString_str ha []) hl]
        simp
    · rw [extractAction_eq,extractString_str ha,if_neg hne,completedByFirst_eq_completed_cstr_iff hne]
      simp [hne]

end

/-- A message with the given members. -/
def actionMessage (key name : Bytes) : JObject := [(key,.str name)]

theorem pagesAgree_cart : PagesAgree .blank Exporter.importerGo (actionMessage (lit "action") (lit "Cart#show")) := by
  have haction : (actionMessage (lit "action") (lit "Cart#show")).lookup (lit "action") =
      some (.str (lit "Cart#show")) := by
    rw [actionMessage,JObject.lookup_cons,if_pos rfl]
  have hlogjam : (actionMessage (lit "action") (lit "Cart#show")).lookup (lit "logjam_action") = none := by
    rw [actionMessage,JObject.lookup_cons,if_neg (by decide)]
    rfl
  have hiff := pagesAgree_iff .blank Exporter.importerGo
    (fun v hv => ⟨_,(Option.some.inj (haction.symm.trans hv)).symm⟩)
    (fun v hv => nomatch hlogjam.symm.trans hv)
  rw [hiff,haction,hlogjam]
  refine ⟨fun a ha _ => ?_,nofun⟩
  obtain rfl := Json.str.inj (Option.some.inj ha)
  decide

/-- An action that is given as logjam_action, and one with two hashes. -/
theorem pages_differ :
    (gelfAction .blank (actionMessage (lit "logjam_action") (lit "Cart#show")) = unknownPage ∧
      extractAction Exporter.importerGo (actionMessage (lit "action") (lit "Cart#show#")) = lit "Cart#show#") ∧
    ¬PagesAgree .blank Exporter.importerGo (actionMessage (lit "logjam_action") (lit "Cart#show")) ∧
    ¬PagesAgree .blank Exporter.importerGo (actionMessage (lit "action") (lit "Cart#show#")) := by
  refine ⟨by decide +kernel,?_,?_⟩
  · rintro ⟨page,rest,-,hgelf,hexporter,-⟩
    exact absurd (hgelf.trans hexporter.symm) (by decide +kernel)
  · rintro ⟨page,rest,-,hgelf,hexporter,-⟩
    exact absurd (hgelf.trans hexporter.symm) (by decide +kernel)

end Logjam.Graylog
