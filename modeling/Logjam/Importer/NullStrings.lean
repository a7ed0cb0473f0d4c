import Logjam.Importer.CounterKeys
import Logjam.Importer.JsExceptions

/-! Members of a message that are null although a text is expected, or not an array although one is expected.
The text of null is a NULL pointer, and some of the handlers look at it without a check. -/
namespace Logjam.Importer
open Logjam.Library

variable {n : ℕ} {env : Env n} {info : StreamInfo} {lib : JsonLib} {request : JObject} {self : Processor n}

/-- A NULL string is used, or the length of a value that is not an array is asked for. -/
def BadAccess (e : Fault) : Prop := e = .nullString ∨ e = .notAnArray

/-- The member is absent, or an array without null. -/
def ListsNames (request : JObject) (name : Bytes) : Prop :=
  ∀ v,request.lookup name = some v → ∃ xs,v = .arr xs ∧ .null ∉ xs

/-- The member with the name of the page. -/
def actionMember (request : JObject) : Option Json := (request.lookup (lit "action")).or (request.lookup (lit "logjam_action"))

/-- The first colon of the page is its last byte, so that the name of the module has no room. -/
def TrailingColon (lib : JsonLib) (request : JObject) : Prop :=
  ∃ page,pageName lib request = .ok page ∧ strchr page 58 = some (page.length-1)

/-- What the handler of backend requests takes for granted. -/
structure RequestReadable (env : Env n) (request : JObject) : Prop where
  action : actionMember request ≠ some .null
  room : ¬TrailingColon env.json request
  exceptions : ListsNames request (lit "exceptions")
  softExceptions : ListsNames request (lit "soft_exceptions")
  times : env.res.otherTimeResources ≠ []

structure JsExceptionReadable (request : JObject) : Prop where
  action : request.lookup (lit "logjam_action") ≠ some .null
  description : request.lookup (lit "description") ≠ some .null

/-- The page matters only for messages that are not dropped before. -/
structure FrontendReadable (env : Env n) (request : JObject) (tracked : Bool) (kind : FrontendKind) : Prop where
  timings : request.lookup (lit "rts") ≠ some .null
  action : ∀ timings,rtsTimings env.json kind request = some timings →
    checkFrontendRequestValidity env.json request tracked = true → (kind.prepare env request timings).1 = .accepted →
    actionMember request ≠ some .null

/-- What is asked of a message whose date is valid, by its topic. -/
def TopicReadable (env : Env n) (info : StreamInfo) (topic : Bytes) (request : JObject) (tracked : Bool) : Prop :=
  if (lit "logs").isPrefixOf topic then
    ignoreRequest request (extractRequestPath env.json request) info = true ∨ RequestReadable env request
  else if (lit "javascript").isPrefixOf topic then JsExceptionReadable request
  else if (lit "events").isPrefixOf topic then True
  else if (lit "frontend.page").isPrefixOf topic then FrontendReadable env request tracked .page
  else if (lit "frontend.ajax").isPrefixOf topic then FrontendReadable env request tracked .ajax
  else True

/-! Single accesses. -/

lemma jsonObjectGetString_eq_none_iff {v : Json} : jsonObjectGetString lib v = none ↔ v = .null := by
  cases v <;> simp [jsonObjectGetString]

lemma avoids_jsonString_iff {v : Json} : Avoids BadAccess (jsonString lib v) ↔ v ≠ .null := by
  rw [jsonString,ne_eq,← jsonObjectGetString_eq_none_iff]
  cases jsonObjectGetString lib v with
  | none => exact iff_of_false (fun h => avoids_error_iff.mp h (.inl rfl)) (not_not.mpr rfl)
  | some s => exact iff_of_true (avoids_ok s) (Option.some_ne_none s)

/-- A buffer that is too small is another matter. -/
lemma avoids_sprintf (size : ℕ) (text : Bytes) : Avoids BadAccess (sprintf size text) := by
  rw [sprintf]
  split_ifs
  · exact avoids_ok text
  · exact avoids_error_iff.mpr (by rintro (h | h) <;> cases h)

lemma avoids_moduleStr (page : Bytes) : Avoids BadAccess (moduleStr page) := avoids_sprintf _ _

lemma avoids_processorSetupModule (self : Processor n) (page : Bytes) : Avoids BadAccess (processorSetupModule self page) :=
  (avoids_moduleStr page).bind fun _ _ => avoids_ok _

lemma avoids_processorAddQuants (res : Resources n) (self : Processor n) (ns : Bytes) (incs : Increments n) :
    Avoids BadAccess (processorAddQuants res self ns incs) := by
  have hquant (ns : Bytes) (i : Fin n) (kind : UInt8) (quant : ℕ) (quants : ZHash (Fin n → ℕ)) :
      Avoids BadAccess (addQuant ns i kind quant quants) :=
    (avoids_sprintf _ _).bind fun _ _ => avoids_ok _
  refine Avoids.foldlM (fun self i _ => ?_) self
  dsimp only
  split_ifs
  · split
    · exact avoids_ok self
    · exact (hquant _ _ _ _ _).bind fun _ _ => (hquant _ _ _ _ _).bind fun _ _ => avoids_ok _
  · exact avoids_ok self

lemma avoids_addAggregates (self : Processor n) (page module : Bytes) (minute : ℤ) (resource : Bytes) (timeIndex : Fin n)
    (incs : Increments n) : Avoids BadAccess (addAggregates env self page module minute resource timeIndex incs) :=
  (avoids_processorAddQuants _ _ _ _).bind fun _ _ => avoids_ok _

/-! Setting up a request. -/

lemma failsOnly_jsonString (v : Json) : FailsOnly BadAccess (jsonString lib v) := by
  rw [jsonString]
  cases jsonObjectGetString lib v with
  | none => exact failsOnly_error (.inl rfl)
  | some s => exact failsOnly_ok s

lemma failsOnly_jsonArray (v : Json) : FailsOnly BadAccess (jsonArray v) := by
  cases v with
  | arr xs => exact failsOnly_ok xs
  | _ => exact failsOnly_error (.inr rfl)

lemma avoids_pageName_iff : Avoids BadAccess (pageName lib request) ↔ actionMember request ≠ some .null := by
  rw [pageName,avoids_bind_pure_iff,avoids_jsonString_iff,← actionMember]
  cases actionMember request <;> simp

lemma failsOnly_processorSetupPage : FailsOnly BadAccess (processorSetupPage lib request) := by
  rw [processorSetupPage_eq]
  exact (failsOnly_jsonString _).bind fun _ => failsOnly_ok _

/-- The page is set up under the same condition under which it has a name. -/
lemma avoids_processorSetupPage_iff :
    Avoids BadAccess (processorSetupPage lib request) ↔ Avoids BadAccess (pageName lib request) := by
  rw [processorSetupPage_eq,avoids_bind_pure_iff,takeAction_fst,pageName,avoids_bind_pure_iff]

/-- The date has been looked at before. -/
def Dated (lib : JsonLib) (request : JObject) : Prop :=
  ∀ v,request.lookup (lit "started_at") = some v → ∃ s,jsonObjectGetString lib v = some s ∧ 15 ≤ s.length

lemma Dated.avoids (h : Dated lib request) : Avoids BadAccess (processorSetupMinute lib request) := by
  obtain ⟨minute,patched,hminute⟩ := exists_minute_iff.mpr h
  exact avoids_of_eq_ok hminute

lemma Dated.congr {other : JObject} (h : Dated lib request)
    (hlookup : other.lookup (lit "started_at") = request.lookup (lit "started_at")) : Dated lib other := by
  rwa [Dated,hlookup]

lemma listsNames_congr {other : JObject} (name : Bytes) (h : other.lookup name = request.lookup name) :
    ListsNames other name ↔ ListsNames request name := by
  rw [ListsNames,ListsNames,h]

lemma failsOnly_setupExceptionGroup (name : Bytes) : FailsOnly BadAccess (setupExceptionGroup request name) := by
  unfold setupExceptionGroup
  split
  · exact failsOnly_ok _
  · refine (failsOnly_jsonArray _).bind fun xs => ?_
    split_ifs
    · exact failsOnly_ok _
    · exact failsOnly_ok _

lemma ListsNames.avoids {name : Bytes} (h : ListsNames request name) : Avoids BadAccess (setupExceptionGroup request name) := by
  unfold setupExceptionGroup
  split
  · exact avoids_ok _
  · next v hv =>
    obtain ⟨xs,rfl,-⟩ := h v hv
    refine (avoids_ok xs).bind fun ys _ => ?_
    split_ifs
    · exact avoids_ok _
    · exact avoids_ok _

/-- Once the member is known to be an array, only its elements count. -/
lemma listsNames_iff_of_setup {name : Bytes} {r : Option Json × JObject} (h : setupExceptionGroup request name = .ok r) :
    ListsNames request name ↔ .null ∉ elementsOf request name := by
  unfold setupExceptionGroup at h
  unfold ListsNames elementsOf
  cases hlookup : request.lookup name with
  | none => exact iff_of_true (fun v hv => by cases hv) List.not_mem_nil
  | some v =>
    rw [hlookup] at h
    obtain ⟨xs,hxs,-⟩ := bind_eq_ok_iff.mp h
    cases v with
    | arr ys => simp
    | _ => cases hxs

lemma failsOnly_fillExceptionGroup (group : Bytes) (incs : Increments n) (exceptions : Option Json) :
    FailsOnly BadAccess (fillExceptionGroup lib group incs exceptions) := by
  unfold fillExceptionGroup
  split
  · exact failsOnly_ok incs
  · refine (failsOnly_jsonArray _).bind fun xs => FailsOnly.foldlM (fun incs x => ?_) xs incs
    exact (failsOnly_jsonString x).bind fun _ => failsOnly_ok _

lemma GroupOf.exists_fill_iff {exceptions : Option Json} {xs : List Json} (h : GroupOf exceptions xs) (group : Bytes)
    (incs : Increments n) : (∃ filled,fillExceptionGroup lib group incs exceptions = .ok filled) ↔ .null ∉ xs := by
  rcases h with ⟨rfl,rfl⟩ | rfl
  · exact iff_of_true ⟨incs,rfl⟩ List.not_mem_nil
  · have hround (incs : Increments n) (x : Json) : (∃ filled,(do
        let s ← jsonString lib x
        return Increments.countOne incs (group ++ replaceDotsAndDollars s) : Except Fault (Increments n)) = .ok filled) ↔
          x ≠ .null := by
      refine (FailsOnly.avoids_iff ?_).symm.trans (avoids_bind_pure_iff.trans avoids_jsonString_iff)
      exact (failsOnly_jsonString x).bind fun _ => failsOnly_ok _
    refine (exists_foldlM_iff hround xs incs).trans ?_
    exact ⟨fun hall hmem => hall _ hmem rfl,fun hnull x hx heq => hnull (heq ▸ hx)⟩

/-- Both groups are set up before the first of them is counted. -/
lemma avoids_backendIncrements_iff {patched : JObject} {totalTime : ℚ} {responseCode severity : ℤ} {hard soft : Option Json}
    {xs ys : List Json} (hxs : GroupOf hard xs) (hys : GroupOf soft ys) :
    Avoids BadAccess (backendIncrements env patched totalTime responseCode severity hard soft) ↔ .null ∉ xs ∧ .null ∉ ys := by
  refine (failsOnly_fillExceptionGroup _ _ _).avoids_bind_iff ?_ fun filled hfilled => ?_
  · rintro ⟨hnull,-⟩
    exact (failsOnly_fillExceptionGroup _ _ _).avoids_iff.mpr ((hxs.exists_fill_iff _ _).mpr hnull)
  · rw [and_iff_right ((hxs.exists_fill_iff _ _).mp ⟨filled,hfilled⟩)]
    exact (failsOnly_fillExceptionGroup _ _ _).avoids_iff.trans (hys.exists_fill_iff _ _)

/-- The loop stops at the last index, or at the first name that is missing. -/
lemma subtractTimes_isOk_iff (names : List Bytes) (last : ℕ) (t : ℚ) :
    (∃ time,subtractTimes lib request names last t = .ok time) ↔ last < names.length := by
  induction names generalizing last t with
  | nil => exact iff_of_false (fun ⟨_,h⟩ => by cases h) (Nat.not_lt_zero _)
  | cons name names ih =>
    cases last with
    | zero => exact iff_of_true ⟨_,rfl⟩ (Nat.succ_pos _)
    | succ last => exact (ih last _).trans Nat.succ_lt_succ_iff.symm

lemma failsOnly_subtractTimes (names : List Bytes) (last : ℕ) (t : ℚ) :
    FailsOnly BadAccess (subtractTimes lib request names last t) := by
  induction names generalizing last t with
  | nil => exact failsOnly_error (.inl rfl)
  | cons name names ih =>
    cases last with
    | zero => exact failsOnly_ok _
    | succ last => exact ih last _

lemma Resources.lastOtherTimeResourceIndex_lt_iff (res : Resources n) :
    res.lastOtherTimeResourceIndex < res.otherTimeResources.length ↔ res.otherTimeResources ≠ [] := by
  rw [← List.length_pos_iff,lastOtherTimeResourceIndex]
  omega

lemma failsOnly_processorSetupOtherTime (res : Resources n) (totalTime : ℚ) :
    FailsOnly BadAccess (processorSetupOtherTime lib res request totalTime) :=
  (failsOnly_subtractTimes _ _ _).bind fun _ => failsOnly_ok _

/-- Without resources the index of the last one has wrapped around. -/
lemma avoids_processorSetupOtherTime_iff (res : Resources n) (totalTime : ℚ) :
    Avoids BadAccess (processorSetupOtherTime lib res request totalTime) ↔ res.otherTimeResources ≠ [] := by
  rw [processorSetupOtherTime,avoids_bind_pure_iff,(failsOnly_subtractTimes _ _ _).avoids_iff,subtractTimes_isOk_iff,
    res.lastOtherTimeResourceIndex_lt_iff]

/-! The handlers. -/

lemma not_trailingColon_iff {named : Bytes × JObject} (h : processorSetupPage lib request = .ok named) :
    ¬TrailingColon lib request ↔ ∃ module,moduleStr named.1 = .ok module := by
  have hfits : (∃ module,moduleStr named.1 = .ok module) ↔ (moduleStr named.1).isOk = true := by
    cases moduleStr named.1 <;> simp [Except.isOk,Except.toBool]
  rw [hfits,moduleStr_isOk_iff,moduleWrites_fit_of_normalised (processorSetupPage_normalised h),TrailingColon,
    (processorSetupPage_eq_ok h).1]
  simp

lemma avoids_processorAddRequest_iff (hdated : Dated env.json request) (hroom : ¬TrailingColon env.json request) :
    Avoids BadAccess (processorAddRequest env info self request) ↔
      ignoreRequest request (extractRequestPath env.json request) info = true ∨ RequestReadable env request := by
  unfold processorAddRequest
  by_cases hignored : ignoreRequest request (extractRequestPath env.json request) info = true
  · rw [if_pos hignored]
    exact iff_of_true (avoids_ok self) (.inl hignored)
  rw [if_neg hignored,or_iff_right hignored]
  refine failsOnly_processorSetupPage.avoids_bind_iff (fun h => ?_) fun named hpage => ?_
  · exact avoids_processorSetupPage_iff.mpr (avoids_pageName_iff.mpr h.action)
  obtain ⟨hname,hlookup⟩ := processorSetupPage_eq_ok hpage
  obtain ⟨module,hmodule⟩ := (not_trailingColon_iff hpage).mp hroom
  simp only [processorSetupModule,bind_assoc,pure_bind]
  rw [avoids_bind_of_eq_ok hmodule]
  have hdated' : Dated env.json (processorSetupSeverity env.json (processorSetupResponseCode env.json named.2).2).2 := by
    refine hdated.congr ?_
    rw [processorSetupSeverity_lookup _ (by decide),processorSetupResponseCode_lookup _ (by decide) (by decide),
      hlookup _ (by decide) (by decide) (by decide)]
  obtain ⟨minute,patched,hminute⟩ := exists_minute_iff.mpr hdated'
  rw [avoids_bind_of_eq_ok hminute]
  have hbefore {k : Bytes} := lookup_before_exceptions (k := k) hpage hminute
  have hreadable : RequestReadable env request ↔ ListsNames request (lit "exceptions") ∧
      ListsNames request (lit "soft_exceptions") ∧ env.res.otherTimeResources ≠ [] := by
    refine ⟨fun h => ⟨h.exceptions,h.softExceptions,h.times⟩,fun h => ⟨?_,hroom,h.1,h.2.1,h.2.2⟩⟩
    exact avoids_pageName_iff.mp (avoids_of_eq_ok hname)
  rw [hreadable,← listsNames_congr (lit "exceptions") (hbefore (by decide) (by decide)),
    ← listsNames_congr (lit "soft_exceptions") (hbefore (by decide) (by decide))]
  generalize (processorSetupTime env.json patched (lit "total_time") none) = timed
  refine (failsOnly_setupExceptionGroup _).avoids_bind_iff (fun h => h.1.avoids) fun hard hhard => ?_
  rw [← listsNames_congr (lit "soft_exceptions") (setupExceptionGroup_lookup hhard (by decide))]
  refine (failsOnly_setupExceptionGroup _).avoids_bind_iff (fun h => h.2.1.avoids) fun soft hsoft => ?_
  refine (failsOnly_processorSetupOtherTime _ _).avoids_bind_iff
    (fun h => (avoids_processorSetupOtherTime_iff _ _).mpr h.2.2) fun others hothers => ?_
  have htimes := (avoids_processorSetupOtherTime_iff _ _).mp (avoids_of_eq_ok hothers)
  rw [avoids_bind_iff,avoids_backendIncrements_iff (groupOf_setup hhard) (groupOf_setup hsoft),
    ← listsNames_iff_of_setup hhard,← listsNames_iff_of_setup hsoft,and_iff_left htimes]
  exact and_iff_left fun incs _ => (avoids_addAggregates _ _ _ _ _ _ _).bind fun _ _ => avoids_ok _

lemma extractPageForJse_cases (lib : JsonLib) (request : JObject) :
    request.lookup (lit "logjam_action") = some .null ∧ extractPageForJse lib request = .error .nullString ∨
      request.lookup (lit "logjam_action") ≠ some .null ∧ ∃ page,extractPageForJse lib request = .ok page := by
  cases hlookup : request.lookup (lit "logjam_action") with
  | none => exact .inr ⟨fun h => (by cases h),_,extractPageForJse_of_none lib hlookup⟩
  | some v =>
    cases hname : jsonObjectGetString lib v with
    | none =>
      obtain rfl := jsonObjectGetString_eq_none_iff.mp hname
      refine .inl ⟨rfl,?_⟩
      rw [extractPageForJse,hlookup]
      rfl
    | some name =>
      refine .inr ⟨fun h => ?_,jsePage name,(extractPageForJse_of_some hlookup).mpr ⟨name,hname,rfl⟩⟩
      rw [Option.some.inj h] at hname
      cases hname

lemma failsOnly_extractPageForJse : FailsOnly BadAccess (extractPageForJse lib request) := by
  rcases extractPageForJse_cases lib request with ⟨-,h⟩ | ⟨-,page,h⟩ <;> rw [h]
  · exact failsOnly_error (.inl rfl)
  · exact failsOnly_ok page

lemma avoids_extractPageForJse_iff :
    Avoids BadAccess (extractPageForJse lib request) ↔ request.lookup (lit "logjam_action") ≠ some .null := by
  rcases extractPageForJse_cases lib request with ⟨hnull,h⟩ | ⟨hnull,page,h⟩ <;> rw [h]
  · exact iff_of_false (fun havoids => avoids_error_iff.mp havoids (.inl rfl)) (not_not.mpr hnull)
  · exact iff_of_true (avoids_ok page) hnull

lemma failsOnly_exctractKeyFromJseDescription : FailsOnly BadAccess (exctractKeyFromJseDescription lib request) := by
  unfold exctractKeyFromJseDescription
  split
  · exact failsOnly_jsonString _
  · exact failsOnly_ok _

lemma avoids_exctractKeyFromJseDescription_iff :
    Avoids BadAccess (exctractKeyFromJseDescription lib request) ↔ request.lookup (lit "description") ≠ some .null := by
  unfold exctractKeyFromJseDescription
  cases request.lookup (lit "description") with
  | none => simp [avoids_ok]
  | some v =>
    rw [avoids_jsonString_iff,ne_eq,ne_eq,Option.some_inj]

lemma avoids_processorAddJsException_iff (hdated : Dated env.json request) :
    Avoids BadAccess (processorAddJsException env self request) ↔ JsExceptionReadable request := by
  refine failsOnly_extractPageForJse.avoids_bind_iff (fun h => avoids_extractPageForJse_iff.mpr h.action) fun page hpage => ?_
  refine failsOnly_exctractKeyFromJseDescription.avoids_bind_iff
    (fun h => avoids_exctractKeyFromJseDescription_iff.mpr h.description) fun description hdescription => ?_
  have hreadable : JsExceptionReadable request :=
    ⟨avoids_extractPageForJse_iff.mp (avoids_of_eq_ok hpage),avoids_exctractKeyFromJseDescription_iff.mp (avoids_of_eq_ok hdescription)⟩
  refine iff_of_true ?_ hreadable
  by_cases hempty : description = []
  · rw [if_pos hempty]
    exact avoids_ok self
  · rw [if_neg hempty]
    exact hdated.avoids.bind fun _ _ => (avoids_processorSetupModule self page).bind fun _ _ => avoids_ok _

lemma avoids_processorAddEvent (hdated : Dated env.json request) : Avoids BadAccess (processorAddEvent env self request) :=
  hdated.avoids.bind fun _ _ => avoids_ok self

lemma failsOnly_extractFrontendTimings (numTimings : ℕ) :
    FailsOnly BadAccess (extractFrontendTimings lib request numTimings) := by
  unfold extractFrontendTimings
  split
  · exact failsOnly_ok _
  · exact (failsOnly_jsonString _).bind fun _ => failsOnly_ok _

lemma avoids_extractFrontendTimings_iff (numTimings : ℕ) :
    Avoids BadAccess (extractFrontendTimings lib request numTimings) ↔ request.lookup (lit "rts") ≠ some .null := by
  unfold extractFrontendTimings
  cases request.lookup (lit "rts") with
  | none => simp [avoids_ok]
  | some v => rw [avoids_bind_pure_iff,avoids_jsonString_iff,ne_eq,ne_eq,Option.some_inj]

/-- Once the page is known, nothing can go wrong with the rest of a frontend message. -/
lemma avoids_fileFrontend_iff {agent : Option Bytes} {clock : Clock}
    {prepared : FeMsgDropReason × JObject × (JObject → ℚ → Increments n)} (hdated : prepared.1 = .accepted → Dated env.json prepared.2.1) :
    Avoids BadAccess (fileFrontend env self agent clock prepared) ↔
      (prepared.1 = .accepted → Avoids BadAccess (pageName env.json prepared.2.1)) := by
  unfold fileFrontend
  by_cases haccepted : prepared.1 = .accepted
  · rw [if_neg (not_not.mpr haccepted),forall_prop_of_true haccepted,← avoids_processorSetupPage_iff]
    refine failsOnly_processorSetupPage.avoids_bind_iff id fun paged hpage => ?_
    refine iff_of_true ?_ (avoids_of_eq_ok hpage)
    refine (avoids_processorSetupModule self paged.1).bind fun entered _ => ?_
    have hdated' : Dated env.json paged.2 :=
      (hdated haccepted).congr ((processorSetupPage_eq_ok hpage).2 _ (by decide) (by decide) (by decide))
    refine hdated'.avoids.bind fun timed _ => ?_
    dsimp only
    split_ifs
    · exact avoids_ok _
    · exact (avoids_addAggregates _ _ _ _ _ _ _).bind fun _ _ => avoids_ok _
  · rw [if_pos haccepted]
    exact iff_of_true (avoids_ok _) fun h => absurd h haccepted

lemma avoids_processorAddFrontend_iff {tracked : Bool} (kind : FrontendKind) (hdated : Dated env.json request) :
    Avoids BadAccess (processorAddFrontend env self request tracked kind) ↔ FrontendReadable env request tracked kind := by
  rw [processorAddFrontend_eq,addFrontend]
  refine (failsOnly_extractFrontendTimings _).avoids_bind_iff (fun h => (avoids_extractFrontendTimings_iff _).mpr h.timings)
    fun result hresult => ?_
  have hrts := (avoids_extractFrontendTimings_iff _).mp (avoids_of_eq_ok hresult)
  have hread := extractFrontendTimings_eq hresult
  cases result with
  | none => exact iff_of_true (avoids_ok _) ⟨hrts,fun timings htimings => by cases hread.symm.trans htimings⟩
  | some timings =>
    have hreadable : FrontendReadable env request tracked kind ↔
        (checkFrontendRequestValidity env.json request tracked = true → (kind.prepare env request timings).1 = .accepted →
          actionMember request ≠ some .null) := by
      refine ⟨fun h => h.action timings hread,fun h => ⟨hrts,fun timings' htimings => ?_⟩⟩
      obtain rfl := Option.some.inj (hread.symm.trans htimings)
      exact h
    rw [hreadable]
    cases hvalid : checkFrontendRequestValidity env.json request tracked with
    | false => exact iff_of_true (avoids_ok _) fun h => by cases h
    | true =>
      rw [forall_prop_of_true rfl]
      refine (avoids_fileFrontend_iff fun haccepted => hdated.congr (prepare_lookup_of_mem haccepted (by decide))).trans ?_
      refine forall_congr' fun haccepted => ?_
      rw [pageName_prepare haccepted,avoids_pageName_iff]

/-! The parser. -/

/-- The date of the message, if it is one that the parser accepts. -/
def DatedAs (env : Env n) (request : JObject) (date : Bytes) : Prop :=
  ∃ v,request.lookup (lit "started_at") = some v ∧ jsonObjectGetString env.json v = some date ∧ validDatabaseDate env date = true

lemma DatedAs.dated {date : Bytes} (h : DatedAs env request date) : Dated env.json request := by
  obtain ⟨v,hv,hdate,hvalid⟩ := h
  rw [validDatabaseDate,Bool.and_eq_true,decide_eq_true_eq] at hvalid
  intro w hw
  obtain rfl := Option.some.inj (hv.symm.trans hw)
  exact ⟨date,hdate,by omega⟩

lemma DatedAs.unique {date other : Bytes} (h : DatedAs env request date) (h' : DatedAs env request other) : other = date := by
  obtain ⟨v,hv,hdate,-⟩ := h
  obtain ⟨w,hw,hother,-⟩ := h'
  obtain rfl := Option.some.inj (hv.symm.trans hw)
  exact Option.some.inj (hother.symm.trans hdate)

lemma jsonObjectObjectGetEx_eq (request : Json) (key : Bytes) :
    jsonObjectObjectGetEx request key = (jsonMembers request).lookup key := by
  cases request with
  | obj members => exact JObject.lookup_eq members key
  | _ => rfl

/-- The parser finds a processor for the message if its date is valid, and looks at the date before it knows. -/
lemma processorCreate_cases {stream : Bytes} (body : Json) (h : env.getStreamInfo (cstr stream) = some info) :
    (jsonMembers body).lookup (lit "started_at") = some .null ∧ processorCreate env stream body = .error .nullString ∨
      (jsonMembers body).lookup (lit "started_at") ≠ some .null ∧
        ((∀ date,¬DatedAs env (jsonMembers body) date) ∧ processorCreate env stream body = .ok none ∨
          ∃ date,DatedAs env (jsonMembers body) date ∧
            processorCreate env stream body = .ok (some (databaseName stream date,info))) := by
  unfold processorCreate DatedAs
  rw [h,jsonObjectObjectGetEx_eq]
  dsimp only
  cases (jsonMembers body).lookup (lit "started_at") with
  | none =>
    refine .inr ⟨Option.some_ne_none _ ∘ Eq.symm,.inl ⟨?_,rfl⟩⟩
    rintro date ⟨v,hv,-⟩
    cases hv
  | some v =>
    cases hdate : jsonObjectGetString env.json v with
    | none =>
      obtain rfl := jsonObjectGetString_eq_none_iff.mp hdate
      exact .inl ⟨rfl,rfl⟩
    | some date =>
      have hnull : some v ≠ some .null := by
        intro hv
        rw [Option.some.inj hv] at hdate
        cases hdate
      have hstring : jsonString env.json v = .ok date := by rw [jsonString,hdate]
      refine .inr ⟨hnull,?_⟩
      dsimp only
      rw [hstring]
      by_cases hvalid : validDatabaseDate env date = true
      · exact .inr ⟨date,⟨v,rfl,hdate,hvalid⟩,if_pos hvalid⟩
      · refine .inl ⟨?_,if_neg hvalid⟩
        rintro other ⟨w,hw,hother,hvalid'⟩
        obtain rfl := Option.some.inj hw
        exact hvalid (Option.some.inj (hdate.symm.trans hother) ▸ hvalid')

lemma avoids_withProcessor_iff {state : ParserState n} {dbName : Bytes} {handler : Processor n → Except Fault (Processor n)}
    {C : Prop} (h : ∀ p,Avoids BadAccess (handler p) ↔ C) : Avoids BadAccess (withProcessor state dbName handler) ↔ C :=
  avoids_bind_pure_iff.trans (h _)

lemma avoids_withFrontendProcessor_iff {state : ParserState n} {dbName : Bytes}
    {handler : Processor n → Except Fault (FeMsgDropReason × Processor n)} {C : Prop} (h : ∀ p,Avoids BadAccess (handler p) ↔ C) :
    Avoids BadAccess (withFrontendProcessor state dbName handler) ↔ C :=
  avoids_bind_pure_iff.trans (h _)

/-- The settings with which a message of the given date is handled, those of the stream that its processor was created for. -/
def Parser.settings (env : Env n) (parser : Parser n) (info : StreamInfo) (msg : ParsedMsg) (date : Bytes) : StreamInfo :=
  settingsOf env parser.streams (databaseName msg.stream date) info msg

/-- The name of a module is written behind its buffer, and the handler goes on to read the request. -/
def Overruns (env : Env n) (parser : Parser n) (info : StreamInfo) (msg : ParsedMsg) : Prop :=
  (lit "logs").isPrefixOf msg.topic = true ∧ TrailingColon env.json (jsonMembers msg.request) ∧
    ∃ date,DatedAs env (jsonMembers msg.request) date ∧ ignoreRequest (jsonMembers msg.request)
      (extractRequestPath env.json (jsonMembers msg.request)) (parser.settings env info msg date) = false

/-- What follows an overrun is not determined, so that it counts as unsafe. -/
structure HandledSafely (env : Env n) (parser : Parser n) (info : StreamInfo) (msg : ParsedMsg) : Prop where
  room : ¬Overruns env parser info msg
  reads : Avoids BadAccess (parseMsg env parser msg)

lemma avoids_handleMsg_iff {msg : ParsedMsg} {dbName : Bytes} {state : ParserState n} (hdated : Dated env.json (jsonMembers msg.request))
    (hroom : (lit "logs").isPrefixOf msg.topic = true → TrailingColon env.json (jsonMembers msg.request) → ignoreRequest (jsonMembers msg.request)
      (extractRequestPath env.json (jsonMembers msg.request)) info = true) :
    Avoids BadAccess (handleMsg env dbName info state msg) ↔
      TopicReadable env info msg.topic (jsonMembers msg.request) msg.tracked := by
  unfold handleMsg TopicReadable
  dsimp only
  split_ifs with hlogs
  · refine avoids_withProcessor_iff fun self => ?_
    by_cases hcolon : TrailingColon env.json (jsonMembers msg.request)
    · have hignored := hroom hlogs hcolon
      rw [processorAddRequest,if_pos hignored]
      exact iff_of_true (avoids_ok self) (.inl hignored)
    · exact avoids_processorAddRequest_iff hdated hcolon
  · exact avoids_withProcessor_iff fun _ => avoids_processorAddJsException_iff hdated
  · exact avoids_withProcessor_iff fun _ => iff_of_true (avoids_processorAddEvent hdated) trivial
  · exact avoids_withFrontendProcessor_iff fun _ => avoids_processorAddFrontend_iff .page hdated
  · exact avoids_withFrontendProcessor_iff fun _ => avoids_processorAddFrontend_iff .ajax hdated
  · exact avoids_withProcessor_iff fun _ => iff_of_true (avoids_ok _) trivial

/-- The condition of the handler covers the overrun. -/
lemma not_overruns_of_topicReadable {parser : Parser n} {msg : ParsedMsg}
    (h : ∀ date,DatedAs env (jsonMembers msg.request) date →
      TopicReadable env (parser.settings env info msg date) msg.topic (jsonMembers msg.request) msg.tracked) :
    ¬Overruns env parser info msg := by
  rintro ⟨hlogs,hcolon,date,hdate,hignored⟩
  have hreadable := h date hdate
  rw [TopicReadable,if_pos hlogs,hignored] at hreadable
  rcases hreadable with hfalse | hreadable
  · cases hfalse
  · exact hreadable.room hcolon

/-- The bodies that the parser and the processor can read, for a known stream. -/
theorem handledSafely_iff {msg : ParsedMsg} (h : env.getStreamInfo (cstr msg.stream) = some info) (parser : Parser n) :
    HandledSafely env parser info msg ↔
      (jsonMembers msg.request).lookup (lit "started_at") ≠ some .null ∧ ∀ date,DatedAs env (jsonMembers msg.request) date →
        TopicReadable env (parser.settings env info msg date) msg.topic (jsonMembers msg.request) msg.tracked := by
  rcases processorCreate_cases msg.request h with ⟨hnull,hcreate⟩ | ⟨hnull,⟨hinvalid,hcreate⟩ | ⟨date,hdate,hcreate⟩⟩
  · refine iff_of_false (fun hsafe => ?_) fun hreadable => hreadable.1 hnull
    have hreads := hsafe.reads
    rw [parseMsg,hcreate] at hreads
    exact avoids_error_iff.mp hreads (.inl rfl)
  · refine iff_of_true ⟨fun ⟨_,_,date,hdate,_⟩ => hinvalid date hdate,?_⟩ ⟨hnull,fun date hdate => absurd hdate (hinvalid date)⟩
    rw [parseMsg,avoids_bind_of_eq_ok hcreate]
    exact avoids_ok parser
  · have hparse (hroom : ¬Overruns env parser info msg) : Avoids BadAccess (parseMsg env parser msg) ↔
        TopicReadable env (parser.settings env info msg date) msg.topic (jsonMembers msg.request) msg.tracked := by
      rw [parseMsg,avoids_bind_of_eq_ok hcreate]
      refine avoids_bind_pure_iff.trans (avoids_handleMsg_iff hdate.dated fun hlogs hcolon => ?_)
      by_contra hignored
      exact hroom ⟨hlogs,hcolon,date,hdate,Bool.eq_false_iff.mpr hignored⟩
    constructor
    · intro hsafe
      refine ⟨hnull,fun other hother => ?_⟩
      rw [hdate.unique hother]
      exact (hparse hsafe.room).mp hsafe.reads
    · rintro ⟨-,hreadable⟩
      have hroom := not_overruns_of_topicReadable hreadable
      exact ⟨hroom,(hparse hroom).mpr (hreadable date hdate)⟩

/-- A message for the stream that the sample importer knows. -/
def sampleMessage (body : JObject) : ParsedMsg := ⟨lit "shop-production",lit "logs",.obj body,false⟩

def sampleBody : JObject := [(lit "started_at",.str (lit "2026-01-31T09:15:30.100")),(lit "action",.str (lit "Cart#show"))]

theorem handledSafely_sample :
    sampleEnv.getStreamInfo (cstr (sampleMessage sampleBody).stream) = some ⟨lit "production",none,false,[]⟩ ∧
      (HandledSafely sampleEnv parserNew ⟨lit "production",none,false,[]⟩ (sampleMessage sampleBody) ↔
        sampleBody.lookup (lit "started_at") ≠ some .null ∧ ∀ date,DatedAs sampleEnv sampleBody date →
          TopicReadable sampleEnv (parserNew.settings sampleEnv ⟨lit "production",none,false,[]⟩ (sampleMessage sampleBody) date)
            (lit "logs") sampleBody false) :=
  have hknown : sampleEnv.getStreamInfo (cstr (sampleMessage sampleBody).stream) = some ⟨lit "production",none,false,[]⟩ := rfl
  ⟨hknown,handledSafely_iff hknown parserNew⟩

/-- The date is null. -/
theorem parseMsg_null_date :
    (parseMsg sampleEnv parserNew (sampleMessage [(lit "started_at",.null)])).map Parser.state = .error .nullString := rfl

end Logjam.Importer
