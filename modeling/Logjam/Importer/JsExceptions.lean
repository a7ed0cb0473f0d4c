import Logjam.Importer.ModuleNames

/-! Exceptions that browsers report, and where they are counted. Those of unknown origin should only
show up in the overall numbers. -/
namespace Logjam.Importer
open Logjam.Library Logjam.Library.MergeMap

variable {n : ℕ} {env : Env n} {self next : Processor n} {lib : JsonLib} {request : JObject}
  {page description module : Bytes} {minute : ℤ}

/-- The increments are added once under each of the keys, and nothing else changes. -/
structure AddedOnce (before after : ZHash (Increments n)) (keys : List Bytes) (incs : Increments n) : Prop where
  added : ∀ key ∈ keys,value after key = value before key+(incs : WithZero (Increments n))
  unchanged : ∀ key ∉ keys,value after key = value before key

/-- What the handler reads out of a message. -/
structure JseReading (lib : JsonLib) (request : JObject) (page description module : Bytes) (minute : ℤ) : Prop where
  page_eq : extractPageForJse lib request = .ok page
  description_eq : exctractKeyFromJseDescription lib request = .ok description
  module_eq : moduleStr page = .ok module
  minute_eq : ∃ patched,processorSetupMinute lib request = .ok (minute,patched)

/-- Where an exception belongs: to its page if the method is known, and to its module if the action has
not been defaulted to one of the Unknown module. -/
def originNamespaces (request : JObject) (page module : Bytes) : List Bytes :=
  lit "all_pages"::((if strstr page (lit "#unknown_method") = none then [page] else []) ++
    if request.lookup (lit "logjam_action") ≠ none then [module] else [])

/-- The exception is counted where it belongs, and nowhere else. -/
def CountedByOrigin (lib : JsonLib) (request : JObject) (self next : Processor n) : Prop :=
  ∃ page description module minute,JseReading lib request page description module minute ∧
    AddedOnce self.totals next.totals (originNamespaces request page module) (jsExceptionIncrements description) ∧
    AddedOnce self.minutes next.minutes ((originNamespaces request page module).map (minutesKey · minute))
      (jsExceptionIncrements description)

/-- The action is given and the handler survives the message: the action is not null and not of the
form that breaks the module buffer, and the time is long enough to be cut. -/
structure OriginKnown (lib : JsonLib) (request : JObject) : Prop where
  action : ∃ v name,request.lookup (lit "logjam_action") = some v ∧ jsonObjectGetString lib v = some name ∧
    (35 ∈ name → strchr name 58 ≠ some (name.length-1))
  time : ∀ v,request.lookup (lit "started_at") = some v →
    ∃ s,jsonObjectGetString lib v = some s ∧ 15 ≤ s.length

/-! Adding under several keys. -/

lemma addedOnce_foldl (m : ZHash (Increments n)) (incs : Increments n) {keys : List Bytes} (h : keys.Nodup) :
    AddedOnce m (keys.foldl (fun m key => combineAt incrementsAdd m key incs) m) keys incs := by
  induction keys generalizing m with
  | nil => exact ⟨List.forall_mem_nil _,fun _ _ => rfl⟩
  | cons k keys ih =>
    obtain ⟨hk,hkeys⟩ := List.nodup_cons.mp h
    have hrest := ih (combineAt incrementsAdd m k incs) hkeys
    have hfirst (key : Bytes) : value (combineAt incrementsAdd m k incs) key = _ := value_combineAt m k key incs
    constructor
    · intro key hmem
      by_cases hkey : k = key
      · subst hkey
        rw [List.foldl_cons,hrest.unchanged k hk,hfirst,if_pos rfl]
      · have hmem' : key ∈ keys := (List.mem_cons.mp hmem).resolve_left (Ne.symm hkey)
        rw [List.foldl_cons,hrest.added key hmem',hfirst,if_neg hkey]
    · intro key hmem
      obtain ⟨hne,hmem'⟩ := not_or.mp fun h => hmem (List.mem_cons.mpr h)
      rw [List.foldl_cons,hrest.unchanged key hmem',hfirst,if_neg (Ne.symm hne)]

/-- The counter of an exception leaves its mark. -/
lemma add_jsExceptionIncrements_ne (a : WithZero (Increments n)) (description : Bytes) :
    a+((jsExceptionIncrements description : Increments n) : WithZero (Increments n)) ≠ a := by
  intro h
  cases a with
  | zero => exact WithZero.coe_ne_zero ((zero_add _).symm.trans h)
  | coe stored =>
    have hadd : stored+jsExceptionIncrements description = stored := WithZero.coe_inj.mp h
    -- the counter itself has grown by one, or it is new
    have hcounter : value stored.others (lit "js_exceptions." ++ uriReplaceDotsAndDollars description)+WithZero.coe 1 =
        value stored.others (lit "js_exceptions." ++ uriReplaceDotsAndDollars description) := by
      have hothers := congrArg Increments.others hadd
      rw [Increments.add_others] at hothers
      have hvalue := congrArg (value · (lit "js_exceptions." ++ uriReplaceDotsAndDollars description)) hothers
      rw [value_add] at hvalue
      simpa only [jsExceptionIncrements,incrementsFillJsException,Increments.countOne,value_insert,if_true] using hvalue
    cases hstored : value stored.others (lit "js_exceptions." ++ uriReplaceDotsAndDollars description) with
    | zero =>
      rw [hstored,zero_add] at hcounter
      exact WithZero.coe_ne_zero hcounter
    | coe count =>
      rw [hstored] at hcounter
      exact absurd (WithZero.coe_inj.mp hcounter) (Nat.succ_ne_self count)

/-! The keys are distinct. -/

/-- Only the end of a name can be lost in a key. -/
lemma take_eq_of_minutesKey {a b : Bytes} (h : minutesKey a minute = minutesKey b minute) : a.take 10 = b.take 10 := by
  have hdigits : (decimal (sizeOfInt minute)).length ≤ 20 := by
    rw [decimal,List.length_map,Nat.length_toDigits_le_iff (by decide) (by decide)]
    unfold sizeOfInt
    omega
  have hlength : (decimal (sizeOfInt minute) ++ lit "-").length ≤ 21 := by
    rw [List.length_append]
    exact Nat.add_le_add_right hdigits 1
  have hkey (ns : Bytes) : (minutesKey ns minute).drop (decimal (sizeOfInt minute) ++ lit "-").length =
      ns.take (1999-(decimal (sizeOfInt minute) ++ lit "-").length) := by
    rw [minutesKey,snprintf,List.drop_take,List.drop_left]
  have hrest := congrArg (fun key => (key.drop (decimal (sizeOfInt minute) ++ lit "-").length).take 10) h
  simp only [hkey,List.take_take] at hrest
  rwa [Nat.min_eq_left (by omega)] at hrest

lemma take_ne_allPages (h : 35 ∈ page) : page.take 10 ≠ (lit "all_pages").take 10 := by
  intro htake
  have hlength := congrArg List.length htake
  rw [List.length_take,show ((lit "all_pages").take 10).length = 9 from rfl] at hlength
  rw [List.take_of_length_le (by omega)] at htake
  exact ne_allPages_of_mem h htake

/-- A module starts with two colons, and if the page has a colon at its start they are all of it. -/
lemma moduleStr_cases (h : moduleStr page = .ok module) :
    ∃ rest,module = lit "::" ++ rest ∧ (page.head? = some 58 → rest = []) := by
  have htext {size : ℕ} {text : Bytes} (h : sprintf size text = .ok module) : module = text := by
    unfold sprintf at h
    split_ifs at h
    exact (Except.ok.inj h).symm
  have hmodule := htext h
  cases hcolon : strchr page 58 with
  | some p =>
    rw [hcolon] at hmodule
    by_cases hp : p = 0
    · exact ⟨[],by simpa [hp] using hmodule,fun _ => rfl⟩
    · refine ⟨page.take p,by simpa [hp] using hmodule,fun hhead => absurd ?_ hp⟩
      obtain ⟨rest,rfl⟩ := List.head?_eq_some_iff.mp hhead
      simpa [strchr,List.findIdx?_cons,eq_comm] using hcolon
  | none =>
    have hnone : 58 ∉ page := fun hmem => by
      have := List.findIdx?_eq_none_iff.mp hcolon 58 hmem
      simp at this
    rw [hcolon] at hmodule
    cases hhash : strchr page 35 with
    | some p =>
      rw [hhash] at hmodule
      exact ⟨page.take p,hmodule,fun hhead => absurd (List.mem_of_mem_head? hhead) hnone⟩
    | none =>
      rw [hhash] at hmodule
      exact ⟨[],hmodule,fun _ => rfl⟩

lemma take_ne_module (h : 35 ∈ page) (hmodule : moduleStr page = .ok module) : page.take 10 ≠ module.take 10 := by
  obtain ⟨rest,rfl,hrest⟩ := moduleStr_cases hmodule
  intro htake
  have hhead := congrArg List.head? htake
  rw [List.head?_take,List.head?_take] at hhead
  rw [hrest hhead] at htake
  have hlength := congrArg List.length htake
  have hcolons : ((lit "::" ++ []).take 10).length = 2 := rfl
  rw [List.length_take,hcolons] at hlength
  rw [List.take_of_length_le (by omega)] at htake
  exact absurd (htake ▸ h) (by decide)

lemma module_take_ne_allPages (hmodule : moduleStr page = .ok module) :
    module.take 10 ≠ (lit "all_pages").take 10 := by
  obtain ⟨rest,rfl,-⟩ := moduleStr_cases hmodule
  intro htake
  have hhead : some (58 : UInt8) = some 97 := congrArg List.head? htake
  exact absurd hhead (by decide)

/-! What the handler does. -/

/-- The namespaces the handler counts an exception under: no module has the name it leaves out. -/
def countedNamespaces (page module : Bytes) : List Bytes :=
  lit "all_pages"::((if strstr page (lit "#unknown_method") = none then [page] else []) ++ [module])

lemma module_ne_unknown (hmodule : moduleStr page = .ok module) : module ≠ lit "Unknown" := by
  obtain ⟨rest,rfl,-⟩ := moduleStr_cases hmodule
  intro h
  have hhead : some (58 : UInt8) = some 85 := congrArg List.head? h
  exact absurd hhead (by decide)

lemma nodup_map_countedNamespaces (h : 35 ∈ page) (hmodule : moduleStr page = .ok module) {f : Bytes → Bytes}
    (hf : ∀ a b,f a = f b → a.take 10 = b.take 10) : ((countedNamespaces page module).map f).Nodup := by
  have hpage : f (lit "all_pages") ≠ f page := fun heq => take_ne_allPages h (hf _ _ heq).symm
  have hall : f (lit "all_pages") ≠ f module := fun heq => module_take_ne_allPages hmodule (hf _ _ heq).symm
  have hne : f page ≠ f module := fun heq => take_ne_module h hmodule (hf _ _ heq)
  unfold countedNamespaces
  split_ifs
  · simp [hpage,hall,hne]
  · simp [hall]

lemma processorAddJsException_counted (hreading : JseReading env.json request page description module minute)
    (hne : description ≠ []) (self : Processor n) :
    ∃ next,processorAddJsException env self request = .ok next ∧
      AddedOnce self.totals next.totals (countedNamespaces page module) (jsExceptionIncrements description) ∧
      AddedOnce self.minutes next.minutes ((countedNamespaces page module).map (minutesKey · minute))
        (jsExceptionIncrements description) := by
  obtain ⟨hpage,hdescription,hmodule,patched,hminute⟩ := hreading
  have hhash := (extractPageForJse_normalised hpage).1
  have htotals := nodup_map_countedNamespaces hhash hmodule (f := id) fun a b heq => congrArg (List.take 10) heq
  have hminutes := nodup_map_countedNamespaces hhash hmodule (f := (minutesKey · minute)) fun a b heq => take_eq_of_minutesKey heq
  rw [List.map_id] at htotals
  have hknown := module_ne_unknown hmodule
  simp only [processorAddJsException,hpage,hdescription,if_neg hne,hminute,processorSetupModule,hmodule,
    bind,Except.bind,pure,Except.pure,if_pos hknown]
  refine ⟨_,rfl,?_,?_⟩
  · convert addedOnce_foldl self.totals (jsExceptionIncrements description) htotals using 1
    unfold countedNamespaces
    split_ifs <;> rfl
  · convert addedOnce_foldl self.minutes (jsExceptionIncrements description) hminutes using 1
    unfold countedNamespaces
    split_ifs <;> rfl

/-! The messages the handler survives. -/

lemma getLast?_of_strchr {s : Bytes} {c : UInt8} (h : strchr s c = some (s.length-1)) : s.getLast? = some c := by
  obtain ⟨hlt,hc,-⟩ := List.findIdx?_eq_some_iff_getElem.mp h
  rw [List.getLast?_eq_getElem?,List.getElem?_eq_getElem hlt,eq_of_beq hc]

/-- A completed name has no colon at its end, so the name was not completed if the page has one. -/
lemma strchr_jsePage_iff {name : Bytes} :
    strchr (jsePage name) 58 ≠ some ((jsePage name).length-1) ↔ (35 ∈ name → strchr name 58 ≠ some (name.length-1)) := by
  have hcompleted {name suffix : Bytes} (hlast : suffix.getLast? = some 100) :
      strchr (name ++ suffix) 58 ≠ some ((name ++ suffix).length-1) := by
    intro h
    have hcolon := getLast?_of_strchr h
    rw [List.getLast?_append,hlast] at hcolon
    exact absurd hcolon (by decide : (some 100 : Option UInt8) ≠ some 58)
  unfold jsePage
  split_ifs with hnone hlast
  · exact iff_of_true (hcompleted rfl) fun hmem => absurd hmem (Graylog.strchr_eq_none.mp hnone)
  · refine iff_of_true (hcompleted rfl) fun _ h => ?_
    rw [getLast?_of_strchr h] at hlast
    exact absurd hlast (by decide : (some 58 : Option UInt8) ≠ some 35)
  · exact ⟨fun h _ => h,fun h => h (mem_of_strchr hnone)⟩

lemma exists_module_iff {name : Bytes} :
    (∃ module,moduleStr (jsePage name) = .ok module) ↔ (35 ∈ name → strchr name 58 ≠ some (name.length-1)) := by
  rw [← strchr_jsePage_iff,← moduleWrites_fit_of_normalised (jsePage_normalised name),← moduleStr_isOk_iff]
  constructor
  · rintro ⟨module,h⟩
    rw [h]
    rfl
  · exact exists_ok_of_isOk

lemma exists_minute_iff :
    (∃ minute patched,processorSetupMinute lib request = .ok (minute,patched)) ↔
      ∀ v,request.lookup (lit "started_at") = some v → ∃ s,jsonObjectGetString lib v = some s ∧ 15 ≤ s.length := by
  unfold processorSetupMinute
  cases request.lookup (lit "started_at") with
  | none => simp
  | some v =>
    cases hs : jsonObjectGetString lib v with
    | none => simp [jsonString,hs,bind,Except.bind]
    | some s =>
      by_cases hlength : s.length < 15
      · simp [jsonString,hs,bind,Except.bind,hlength,throw,throwThe,MonadExceptOf.throw]
      · simp [jsonString,hs,bind,Except.bind,hlength,pure,Except.pure]
        omega

/-- The module an action is defaulted to is counted although it should not be. -/
lemma not_countedByOrigin_of_none (hdescription : exctractKeyFromJseDescription env.json request = .ok description)
    (hne : description ≠ []) (hlookup : request.lookup (lit "logjam_action") = none)
    (hnext : processorAddJsException env self request = .ok next) : ¬CountedByOrigin env.json request self next := by
  rintro ⟨page,description',module,minute,hreading,htotals,-⟩
  obtain rfl : description' = description := Except.ok.inj (hreading.description_eq.symm.trans hdescription)
  obtain ⟨next',hnext',hcounted,-⟩ := processorAddJsException_counted hreading hne self
  obtain rfl : next = next' := Except.ok.inj (hnext.symm.trans hnext')
  have hpage : page = lit "Unknown#unknown_method" :=
    Except.ok.inj (hreading.page_eq.symm.trans (extractPageForJse_of_none _ hlookup))
  have hmodule : module = lit "::Unknown" := by
    have h := hreading.module_eq
    rw [hpage] at h
    exact (Except.ok.inj h).symm
  have hclaimed := htotals.unchanged module (by rw [originNamespaces,hlookup,hpage,hmodule]; decide)
  rw [hcounted.added module (by simp [countedNamespaces])] at hclaimed
  exact absurd hclaimed (add_jsExceptionIncrements_ne _ _)

/-- Exceptions are counted where they belong if the message names an action. Without one they are also
counted for the module ::Unknown, since the name that is to be left out lacks the colons. -/
theorem processorAddJsException_countedByOrigin_iff
    (hdescription : exctractKeyFromJseDescription env.json request = .ok description) (hne : description ≠ []) :
    (∃ next,processorAddJsException env self request = .ok next ∧ CountedByOrigin env.json request self next) ↔
      OriginKnown env.json request := by
  constructor
  · rintro ⟨next,hnext,hcounted⟩
    cases hlookup : request.lookup (lit "logjam_action") with
    | none => exact absurd hcounted (not_countedByOrigin_of_none hdescription hne hlookup hnext)
    | some v =>
      obtain ⟨page,_,module,minute,hreading,-⟩ := hcounted
      obtain ⟨name,hname,rfl⟩ := (extractPageForJse_of_some hlookup).mp hreading.page_eq
      exact ⟨⟨v,name,hlookup,hname,exists_module_iff.mp ⟨module,hreading.module_eq⟩⟩,
        exists_minute_iff.mp ⟨minute,hreading.minute_eq⟩⟩
  · rintro ⟨⟨v,name,hlookup,hname,hcolon⟩,htime⟩
    obtain ⟨module,hmodule⟩ := exists_module_iff.mpr hcolon
    obtain ⟨minute,hminute⟩ := exists_minute_iff.mpr htime
    have hpage := (extractPageForJse_of_some hlookup).mpr ⟨name,hname,rfl⟩
    have hreading : JseReading env.json request (jsePage name) description module minute :=
      ⟨hpage,hdescription,hmodule,hminute⟩
    obtain ⟨next,hnext,htotals,hminutes⟩ := processorAddJsException_counted hreading hne self
    have horigin : originNamespaces request (jsePage name) module = countedNamespaces (jsePage name) module := by
      rw [originNamespaces,hlookup,if_pos (Option.some_ne_none v)]
      rfl
    exact ⟨next,hnext,jsePage name,description,module,minute,hreading,horigin ▸ htotals,horigin ▸ hminutes⟩

/-- A message that names its action. -/
def knownException : JObject :=
  [(lit "logjam_action",.str (lit "Cart#show")),(lit "description",.str (lit "TypeError"))]

theorem processorAddJsException_countedByOrigin_sample :
    (∃ next,processorAddJsException sampleEnv processorNew knownException = .ok next ∧
      CountedByOrigin sampleEnv.json knownException processorNew next) ↔ OriginKnown sampleEnv.json knownException :=
  have hdescription : exctractKeyFromJseDescription sampleEnv.json knownException = .ok (lit "TypeError") := rfl
  processorAddJsException_countedByOrigin_iff hdescription (by decide)

/-- Without an action the exception is counted for the module as well. -/
theorem processorAddJsException_unknown_module :
    ∃ next,processorAddJsException sampleEnv processorNew [(lit "description",.str (lit "TypeError"))] = .ok next ∧
      next.totals[lit "::Unknown"]? ≠ none ∧
      ¬CountedByOrigin sampleEnv.json [(lit "description",.str (lit "TypeError"))] processorNew next := by
  have hdescription : exctractKeyFromJseDescription sampleEnv.json [(lit "description",.str (lit "TypeError"))] =
    .ok (lit "TypeError") := rfl
  exact ⟨_,rfl,by decide,not_countedByOrigin_of_none hdescription (by decide) rfl rfl⟩

end Logjam.Importer
