import Logjam.Importer.Request

/-! How the exporter reads log messages, and which of them it ignores. -/
namespace Logjam.Exporter
open Logjam.Importer (StreamInfo addIgnoredRequestUri extractRequestPath ignoreRequest)

/-- The functions of the Go libraries. Numbers in JSON are float64 values. -/
structure GoLib where
  /-- The digits of a number, after its conversion to an int. -/
  itoa : ℚ → Bytes
  toUpper : Bytes → Bytes
  parseFloat : Bytes → Option ℚ
  /-- The path of a URL, if it can be parsed. -/
  parseUrl : Bytes → Option Bytes

structure Collector where
  app : Bytes
  env : Bytes
  ignoredRequestURI : Bytes
  defaultDC : Bytes

def extractString (go : GoLib) (request : JObject) (key defaultValue : Bytes) : Bytes :=
  match request.lookup key with
  | some (.str s) => s
  | some (.int n) => go.itoa n
  | some (.double x) => go.itoa x
  | _ => defaultValue

/-- The case for integers is never taken. -/
def extractBool (request : JObject) (key : Bytes) : Bool :=
  match request.lookup key with
  | some (.bool b) => b
  | some (.str s) => s == lit "true"
  | _ => false

def extractMap (request : JObject) (key : Bytes) : Option JObject :=
  match request.lookup key with
  | some (.obj members) => some members
  | _ => none

def extractAction (go : GoLib) (request : JObject) : Bytes :=
  let action := extractString go request (lit "action") []
  let action :=
    if action = [] then
      let action := extractString go request (lit "logjam_action") []
      if action = [] then lit "Unknown#unknown_method" else action
    else action
  match strchr action 35 with
  | none => action ++ lit "#unknown_method"
  | some i => if i = action.length-1 then action ++ lit "unknown_method" else action

inductive Processed
  | ignored
  | dropped
  | metric (props : List (Bytes × Bytes)) (value : ℚ)

/-- Whether the path of a request begins with the configured text, which is empty by default. -/
def ignoredByUrl (go : GoLib) (c : Collector) (info : JObject) : Bool :=
  let uri := extractString go info (lit "url") []
  if uri ≠ [] then
    match go.parseUrl uri with
    | some path => c.ignoredRequestURI.isPrefixOf path
    | none => false
  else false

def processLogMessage (go : GoLib) (c : Collector) (data : JObject) : Processed :=
  if extractBool data (lit "logjam_ignore_message") then .ignored
  else
    let info := extractMap data (lit "request_info")
    if info.any (ignoredByUrl go c) then .ignored
    else
      let method := (info.map fun info => go.toUpper (extractString go info (lit "method") [])).getD []
      let kind := if method ≠ [] then [(lit "metric",lit "http"),(lit "method",method)]
        else [(lit "metric",lit "job")]
      let props := [(lit "app",c.app),(lit "env",c.env)] ++ kind ++
        [(lit "action",extractAction go data),
          (lit "code",extractString go data (lit "code") (lit "500")),
          (lit "instance",extractString go data (lit "host") (lit "unknown")),
          (lit "cluster",extractString go data (lit "cluster") (lit "unknown")),
          (lit "dc",extractString go data (lit "datacenter") c.defaultDC)]
      -- milliseconds are turned into seconds
      match go.parseFloat (extractString go data (lit "total_time") (lit "0")) with
      | none => .dropped
      | some value => .metric props (value/1000)

/-- The field of a stream after json.Unmarshal: null leaves it alone, other types are refused. -/
def unmarshalIgnoredRequestURI (stream : JObject) : Option Bytes :=
  match stream.lookup (lit "ignored_request_uri") with
  | none => some []
  | some .null => some []
  | some (.str s) => some s
  | some _ => none

/-! The assumption on URLs. -/

def isAlpha (c : UInt8) : Bool := (65 ≤ c && c ≤ 90) || (97 ≤ c && c ≤ 122)

/-- Letters, digits and the given punctuation. -/
def WordByte (punctuation : Bytes) (c : UInt8) : Prop := isAlpha c ∨ isDigit c ∨ c ∈ punctuation

/-- Bytes of a path that are neither control characters nor special in a URL. -/
def PathByte (c : UInt8) : Prop := 32 ≤ c ∧ c ≠ 127 ∧ c ≠ 37 ∧ c ≠ 63 ∧ c ≠ 35

/-- URLs of the form scheme://host/path or /path, and their path. -/
inductive RequestUrl : Bytes → Bytes → Prop
  | absolute (first : UInt8) (scheme host port path : Bytes) (hfirst : isAlpha first)
      (hscheme : ∀ c ∈ scheme,WordByte (lit "+-.") c) (hhost : ∀ c ∈ host,WordByte (lit "-.") c)
      (hport : port = [] ∨ ∃ digits, port = 58::digits ∧ ∀ c ∈ digits,isDigit c)
      (hpath : ∀ c ∈ path,PathByte c) :
      RequestUrl (first::scheme ++ (lit "://" ++ (host ++ port ++ 47::path))) (47::path)
  -- two slashes would start a host
  | relative (path : Bytes) (hpath : ∀ c ∈ path,PathByte c) (hhead : path.head? ≠ some 47)
      (hproto : strstr (47::path) (lit "://") = none) : RequestUrl (47::path) (47::path)

/-- The URL of a request has one of these forms, if there is one. -/
def HasRequestUrl (request : JObject) : Prop :=
  ∀ (info : JObject) v, request.lookup (lit "request_info") = some (.obj info) →
    info.lookup (lit "url") = some v → v = .null ∨ ∃ url path, v = .str url ∧ RequestUrl url path

/-- The flag as json_object_get_boolean reads it. -/
def Truthy (request : JObject) : Prop :=
  ∃ v, request.lookup (lit "logjam_ignore_message") = some v ∧ jsonObjectGetBoolean v = true

/-- The flag as the exporter reads it. -/
def Flagged (request : JObject) : Prop := extractBool request (lit "logjam_ignore_message") = true

lemma Flagged.truthy {request : JObject} (h : Flagged request) : Truthy request := by
  unfold Flagged extractBool at h
  split at h
  · rename_i b hb
    exact ⟨_,hb,h⟩
  · rename_i s hs
    refine ⟨_,hs,?_⟩
    rw [eq_of_beq h]
    decide
  · exact nomatch h

lemma ignoreRequest_iff {request : JObject} {path : Option Bytes} {info : StreamInfo} :
    ignoreRequest request path info = true ↔
      Truthy request ∨ ∃ q p, path = some q ∧ info.ignoredRequestPrefix = some p ∧ p <+: q := by
  unfold ignoreRequest Truthy
  cases request.lookup (lit "logjam_ignore_message") with
  | none =>
    cases path <;> cases info.ignoredRequestPrefix <;> simp
  | some v =>
    cases path <;> cases info.ignoredRequestPrefix <;> simp

lemma processLogMessage_iff {go : GoLib} {c : Collector} {request : JObject} :
    processLogMessage go c request = .ignored ↔
      Flagged request ∨ ∃ info, extractMap request (lit "request_info") = some info ∧
        ignoredByUrl go c info = true := by
  unfold processLogMessage Flagged
  split
  · rename_i hflag
    simp [hflag]
  · rename_i hflag
    simp only [hflag,Bool.false_eq_true,false_or]
    split
    · rename_i hurl
      simpa [Option.any_eq_true] using hurl
    · rename_i hurl
      split <;> simpa [Option.any_eq_true] using hurl

/-! Where the two paths come from. -/

lemma WordByte.ne {punctuation : Bytes} {c d : UInt8} (h : WordByte punctuation c)
    (hd : isAlpha d = false ∧ isDigit d = false ∧ d ∉ punctuation) : c ≠ d := by
  rintro rfl
  rcases h with h | h | h
  · exact absurd h (by simp [hd.1])
  · exact absurd h (by simp [hd.2.1])
  · exact hd.2.2 h

lemma PathByte.ne_zero {c : UInt8} (h : PathByte c) : c ≠ 0 := by
  rintro rfl
  exact absurd h.1 (by decide)

lemma strstr_append_of_notMem {scheme rest needle : Bytes} {c : UInt8} (hc : c ∉ scheme)
    (hrest : (c::needle) <+: rest) : strstr (scheme ++ rest) (c::needle) = some scheme.length := by
  induction scheme with
  | nil =>
    cases rest with
    | nil => exact absurd (List.eq_nil_of_prefix_nil hrest) (List.cons_ne_nil _ _)
    | cons d rest => rw [List.nil_append,strstr,if_pos (List.isPrefixOf_iff_prefix.mpr hrest),List.length_nil]
  | cons d scheme ih =>
    have hd : ¬(c::needle).isPrefixOf (d::(scheme ++ rest)) := by
      rw [List.isPrefixOf_iff_prefix,List.cons_prefix_cons]
      exact fun h => hc (h.1 ▸ List.mem_cons_self)
    rw [List.cons_append,strstr,if_neg hd,ih fun h => hc (List.mem_cons_of_mem _ h)]
    rfl

lemma dropWhile_host {host rest : Bytes} (h : 47 ∉ host) :
    (host ++ 47::rest).dropWhile (· != 47) = 47::rest := by
  induction host with
  | nil => rfl
  | cons c host ih =>
    have hc : (c != 47) = true := by
      simp only [bne_iff_ne,ne_eq]
      exact fun hc => h (hc ▸ List.mem_cons_self)
    rw [List.cons_append,List.dropWhile_cons,if_pos hc,ih fun h' => h (List.mem_cons_of_mem _ h')]

section
variable {lib : JsonLib} {go : GoLib} {c : Collector} {request info : JObject} {url path : Bytes}

lemma RequestUrl.ne_zero (h : RequestUrl url path) : ∀ c ∈ url,c ≠ 0 := by
  have hzero (punctuation : Bytes) (h : (0 : UInt8) ∉ punctuation) (c : UInt8) (hc : WordByte punctuation c) :
      c ≠ 0 := hc.ne ⟨rfl,rfl,h⟩
  have hpathByte {path : Bytes} (hpath : ∀ c ∈ path,PathByte c) (c : UInt8) (hc : c ∈ 47::path) : c ≠ 0 := by
    rcases List.mem_cons.mp hc with rfl | hc
    · decide
    · exact (hpath c hc).ne_zero
  cases h with
  | absolute first scheme host port path hfirst hscheme hhost hport hpath =>
    intro c hc
    rw [List.mem_append,List.mem_append,List.mem_append,List.mem_append,List.mem_cons] at hc
    rcases hc with (rfl | hc) | hc | (hc | hc) | hc
    · exact hzero [] List.not_mem_nil c (.inl hfirst)
    · exact hzero _ (by decide) c (hscheme c hc)
    · rintro rfl
      exact absurd hc (by decide)
    · exact hzero _ (by decide) c (hhost c hc)
    · rcases hport with rfl | ⟨digits,rfl,hdigits⟩
      · exact absurd hc List.not_mem_nil
      · rcases List.mem_cons.mp hc with rfl | hc
        · decide
        · exact hzero [] List.not_mem_nil c (.inr (.inl (hdigits c hc)))
    · exact hpathByte hpath c hc
  | relative path hpath hhead hproto => exact hpathByte hpath

lemma RequestUrl.subset (h : RequestUrl url path) : ∀ c ∈ path,c ∈ url := by
  cases h with
  | absolute first scheme host port path =>
    intro c hc
    exact List.mem_append_right _ (List.mem_append_right _ (List.mem_append_right _ hc))
  | relative => exact fun _ hc => hc

/-- The importer finds the path of the URL. -/
theorem extractRequestPath_of_url (hinfo : request.lookup (lit "request_info") = some (.obj info))
    (hurl : info.lookup (lit "url") = some (.str url)) (h : RequestUrl url path) :
    extractRequestPath lib request = some path := by
  have hcstr : cstr url = url := cstr_of_notMem fun hzero => h.ne_zero 0 hzero rfl
  unfold extractRequestPath
  simp only [hinfo,Option.bind_eq_bind,Option.bind_some,jsonObjectObjectGetEx,JObject.lookup_eq,hurl,
    jsonObjectGetString,hcstr]
  cases h with
  | absolute first scheme host port path hfirst hscheme hhost hport hpath =>
    have hcolon : (58 : UInt8) ∉ first::scheme := by
      rintro hmem
      rcases List.mem_cons.mp hmem with rfl | hmem
      · exact absurd hfirst (by decide)
      · exact (hscheme 58 hmem).ne ⟨rfl,rfl,by decide⟩ rfl
    have hslash : (47 : UInt8) ∉ host ++ port := by
      intro hmem
      rcases List.mem_append.mp hmem with hmem | hmem
      · exact (hhost 47 hmem).ne ⟨rfl,rfl,by decide⟩ rfl
      · rcases hport with rfl | ⟨digits,rfl,hdigits⟩
        · exact absurd hmem List.not_mem_nil
        · rcases List.mem_cons.mp hmem with hmem | hmem
          · exact absurd hmem (by decide)
          · exact absurd (hdigits 47 hmem) (by decide)
    have hproto : strstr (first::scheme ++ (lit "://" ++ (host ++ port ++ 47::path))) (lit "://") =
        some (first::scheme).length :=
      strstr_append_of_notMem hcolon (List.prefix_append _ _)
    have hdrop : (first::scheme ++ (lit "://" ++ (host ++ port ++ 47::path))).drop ((first::scheme).length+3) =
        host ++ port ++ 47::path := by
      rw [← List.drop_drop,List.drop_left]
      rfl
    rw [hproto]
    simp only [hdrop,dropWhile_host hslash]
    rfl
  | relative path hpath hhead hproto =>
    rw [hproto]
    rfl

/-- The exporter finds no URL. -/
lemma ignoredByUrl_of_no_url (h : info.lookup (lit "url") = none ∨ info.lookup (lit "url") = some .null) :
    ignoredByUrl go c info = false := by
  have huri : extractString go info (lit "url") [] = [] := by
    rcases h with h | h <;> rw [extractString,h]
  rw [ignoredByUrl,huri]
  rfl

lemma RequestUrl.ne_nil (h : RequestUrl url path) : url ≠ [] := by
  cases h <;> exact List.cons_ne_nil _ _

lemma ignoredByUrl_of_url (hgo : ∀ url path, RequestUrl url path → go.parseUrl url = some path)
    (hurl : info.lookup (lit "url") = some (.str url)) (h : RequestUrl url path) :
    ignoredByUrl go c info = c.ignoredRequestURI.isPrefixOf path := by
  have huri : extractString go info (lit "url") [] = url := by rw [extractString,hurl]
  simp only [ignoredByUrl,huri,if_pos h.ne_nil,hgo url path h]

/-- The importer finds no URL. -/
lemma extractRequestPath_of_no_url {v : Json} (hinfo : request.lookup (lit "request_info") = some v)
    (h : jsonObjectObjectGetEx v (lit "url") = none ∨ jsonObjectObjectGetEx v (lit "url") = some .null) :
    extractRequestPath lib request = none := by
  unfold extractRequestPath
  rw [hinfo]
  rcases h with h | h <;> simp [h,jsonObjectGetString]

lemma extractMap_of_not_object (h : ∀ info, request.lookup (lit "request_info") ≠ some (.obj info)) :
    extractMap request (lit "request_info") = none := by
  unfold extractMap
  split
  · rename_i info hinfo
    exact absurd hinfo (h info)
  · rfl

/-- Both find the same path, or none. -/
theorem request_path_cases (hgo : ∀ url path, RequestUrl url path → go.parseUrl url = some path)
    (h : HasRequestUrl request) (lib : JsonLib) (c : Collector) :
    (extractRequestPath lib request = none ∧
      ∀ info, extractMap request (lit "request_info") = some info → ignoredByUrl go c info = false) ∨
    ∃ path info, extractRequestPath lib request = some path ∧ (∀ b ∈ path,b ≠ 0) ∧
      extractMap request (lit "request_info") = some info ∧
      ignoredByUrl go c info = c.ignoredRequestURI.isPrefixOf path := by
  have hnone (hobject : ∀ info, request.lookup (lit "request_info") ≠ some (.obj info))
      (hpath : extractRequestPath lib request = none) : extractRequestPath lib request = none ∧
        ∀ info, extractMap request (lit "request_info") = some info → ignoredByUrl go c info = false := by
    rw [extractMap_of_not_object hobject]
    exact ⟨hpath,nofun⟩
  cases hinfo : request.lookup (lit "request_info") with
  | none =>
    have hpath : extractRequestPath lib request = none := by
      rw [extractRequestPath,hinfo]
      rfl
    exact .inl (hnone (by simp [hinfo]) hpath)
  | some v =>
    cases v with
    | obj info =>
      have hextract : extractMap request (lit "request_info") = some info := by rw [extractMap,hinfo]
      have hmember : jsonObjectObjectGetEx (.obj info) (lit "url") = JObject.lookup info (lit "url") :=
        JObject.lookup_eq info _
      have hno_url (hurl : JObject.lookup info (lit "url") = none ∨
          JObject.lookup info (lit "url") = some .null) : extractRequestPath lib request = none ∧
            ∀ info, extractMap request (lit "request_info") = some info → ignoredByUrl go c info = false := by
        refine ⟨extractRequestPath_of_no_url hinfo (hmember.symm ▸ hurl),fun info' hinfo' => ?_⟩
        obtain rfl := Option.some.inj (hextract.symm.trans hinfo')
        exact ignoredByUrl_of_no_url hurl
      cases hurl : JObject.lookup info (lit "url") with
      | none => exact .inl (hno_url (.inl hurl))
      | some v =>
        rcases h info v hinfo hurl with rfl | ⟨url,path,rfl,hform⟩
        · exact .inl (hno_url (.inr hurl))
        · exact .inr ⟨path,info,extractRequestPath_of_url hinfo hurl hform,
            fun b hb => hform.ne_zero b (hform.subset b hb),hextract,ignoredByUrl_of_url hgo hurl hform⟩
    | _ => exact .inl (hnone (by simp [hinfo]) (extractRequestPath_of_no_url hinfo (.inl rfl)))

/-- The exporter ignores a message because of its flag or its path. -/
lemma ignored_of_path {path : Bytes} {info : JObject} (hextract : extractMap request (lit "request_info") = some info)
    (hurl : ignoredByUrl go c info = c.ignoredRequestURI.isPrefixOf path) :
    processLogMessage go c request = .ignored ↔ Flagged request ∨ c.ignoredRequestURI <+: path := by
  rw [processLogMessage_iff]
  simp [hextract,hurl]

lemma ignored_without_path
    (hurl : ∀ info, extractMap request (lit "request_info") = some info → ignoredByUrl go c info = false) :
    processLogMessage go c request = .ignored ↔ Flagged request := by
  rw [processLogMessage_iff]
  refine or_iff_left ?_
  rintro ⟨info,hinfo,hignored⟩
  exact absurd hignored (by simp [hurl info hinfo])

/-- Importer and exporter ignore the same requests of a stream. -/
def IgnoreAlike (lib : JsonLib) (go : GoLib) (info : StreamInfo) (stream : JObject) (c : Collector)
    (request : JObject) : Prop :=
  ∃ configured, addIgnoredRequestUri lib info stream = .ok configured ∧
    (ignoreRequest request (extractRequestPath lib request) configured = true ↔
      processLogMessage go c request = .ignored)

lemma ignoreAlike_of_settings {info configured : StreamInfo} {stream : JObject}
    (h : addIgnoredRequestUri lib info stream = .ok configured) :
    IgnoreAlike lib go info stream c request ↔
      (ignoreRequest request (extractRequestPath lib request) configured = true ↔
        processLogMessage go c request = .ignored) := by
  constructor
  · rintro ⟨configured',h',hiff⟩
    obtain rfl := Except.ok.inj (h.symm.trans h')
    exact hiff
  · intro hiff
    exact ⟨configured,h,hiff⟩

/-- The importer's decision for a request without path, and with one. -/
lemma ignoreRequest_none {info : StreamInfo} : ignoreRequest request none info = true ↔ Truthy request := by
  rw [ignoreRequest_iff]
  simp

lemma ignoreRequest_some {info : StreamInfo} :
    ignoreRequest request (some path) info = true ↔
      Truthy request ∨ ∃ p, info.ignoredRequestPrefix = some p ∧ p <+: path := by
  rw [ignoreRequest_iff]
  simp

/-- The setting is read alike unless it is null. Without the setting the exporter ignores every
request that has a URL; otherwise the flag decides about requests that do not match. -/
theorem ignoreAlike_iff (lib : JsonLib)
    (hgo : ∀ url path, RequestUrl url path → go.parseUrl url = some path)
    {info : StreamInfo} (hinfo : info.ignoredRequestPrefix = none) {stream : JObject}
    (hstream : unmarshalIgnoredRequestURI stream = some c.ignoredRequestURI) (hrequest : HasRequestUrl request) :
    IgnoreAlike lib go info stream c request ↔
      stream.lookup (lit "ignored_request_uri") ≠ some .null ∧
      (extractRequestPath lib request = none → (Truthy request ↔ Flagged request)) ∧
      ∀ path, extractRequestPath lib request = some path →
        (stream.lookup (lit "ignored_request_uri") = none → Truthy request) ∧
        ∀ uri, stream.lookup (lit "ignored_request_uri") = some (.str uri) →
          uri <+: path ∨ (Truthy request ↔ Flagged request) ∧ (cstr uri <+: path → Flagged request) := by
  have hflag : Flagged request → Truthy request := Flagged.truthy
  unfold unmarshalIgnoredRequestURI at hstream
  split at hstream
  · -- without the setting the exporter compares with the empty string
    rename_i hsetting
    have huri : c.ignoredRequestURI = [] := (Option.some.inj hstream).symm
    have hconfigured : addIgnoredRequestUri lib info stream = .ok info := by
      rw [addIgnoredRequestUri,hsetting]
    rw [ignoreAlike_of_settings hconfigured,hsetting]
    rcases request_path_cases hgo hrequest lib c with ⟨hnone,hurl⟩ | ⟨path,urlInfo,hsome,-,hextract,hurl⟩
    · rw [hnone,ignoreRequest_none,ignored_without_path hurl]
      simp
    · rw [hsome,ignoreRequest_some,ignored_of_path hextract hurl,huri]
      simp [hinfo]
  · -- the string of null is NULL
    rename_i hsetting
    have hfault : addIgnoredRequestUri lib info stream = .error .nullString := by
      rw [addIgnoredRequestUri,hsetting]
      rfl
    refine iff_of_false ?_ fun h => h.1 hsetting
    rintro ⟨configured,hconfigured,-⟩
    exact nomatch hfault.symm.trans hconfigured
  · rename_i uri hsetting
    have huri : c.ignoredRequestURI = uri := (Option.some.inj hstream).symm
    have hconfigured : addIgnoredRequestUri lib info stream =
        .ok { info with ignoredRequestPrefix := some (cstr uri) } := by
      rw [addIgnoredRequestUri,hsetting]
      rfl
    rw [ignoreAlike_of_settings hconfigured,hsetting]
    rcases request_path_cases hgo hrequest lib c with ⟨hnone,hurl⟩ | ⟨path,urlInfo,hsome,hpath,hextract,hurl⟩
    · rw [hnone,ignoreRequest_none,ignored_without_path hurl]
      simp
    · have hmatch : uri <+: path → cstr uri <+: path := fun h =>
        (cstr_of_notMem fun hzero => hpath 0 (h.subset hzero) rfl).symm ▸ h
      rw [hsome,ignoreRequest_some,ignored_of_path hextract hurl,huri]
      simp only [Option.some.injEq,exists_eq_left',ne_eq,reduceCtorEq,not_false_eq_true,IsEmpty.forall_iff,
        true_and,forall_eq',Json.str.injEq]
      by_cases hprefix : uri <+: path
      · exact iff_of_true (iff_of_true (.inr (hmatch hprefix)) (.inr hprefix)) (.inl hprefix)
      · rw [or_iff_left hprefix,or_iff_right hprefix]
        constructor
        · exact fun h => ⟨⟨fun htruthy => h.mp (.inl htruthy),hflag⟩,fun hcut => h.mp (.inr hcut)⟩
        · exact fun ⟨hiff,hcut⟩ => ⟨fun h => h.elim hiff.mp hcut,fun hflagged => .inl (hflag hflagged)⟩
  · exact nomatch hstream

end

instance (c : UInt8) : Decidable (PathByte c) :=
  inferInstanceAs (Decidable (32 ≤ c ∧ c ≠ 127 ∧ c ≠ 37 ∧ c ≠ 63 ∧ c ≠ 35))

def urlMessage (url : Bytes) : JObject := [(lit "request_info",.obj [(lit "url",.str url)])]

/-- Libraries that parse URLs as the importer does. -/
def importerGo : GoLib where
  itoa := fun _ => []
  toUpper := id
  parseFloat := fun _ => some 1
  parseUrl := fun url => extractRequestPath .blank (urlMessage url)

lemma importerGo_parseUrl {url path : Bytes} (h : RequestUrl url path) : importerGo.parseUrl url = some path := by
  have hurl : JObject.lookup [(lit "url",.str url)] (lit "url") = some (.str url) := by
    rw [JObject.lookup_cons,if_pos rfl]
  refine extractRequestPath_of_url ?_ hurl h
  rw [urlMessage,JObject.lookup_cons,if_pos rfl]

lemma hasRequestUrl_urlMessage {url path : Bytes} (h : RequestUrl url path) : HasRequestUrl (urlMessage url) := by
  intro info v hinfo hurl
  rw [urlMessage,JObject.lookup_cons,if_pos rfl] at hinfo
  cases hinfo
  rw [JObject.lookup_cons,if_pos rfl] at hurl
  exact .inr ⟨url,path,(Option.some.inj hurl).symm,h⟩

/-- A stream without settings. -/
def bareInfo : StreamInfo := ⟨lit "production",none,false,[]⟩

def collectorFor (uri : Bytes) : Collector := ⟨lit "shop",lit "production",uri,lit "dc1"⟩

def ignoring (uri : Bytes) : JObject := [(lit "ignored_request_uri",.str uri)]

lemma requestUrl_alive : RequestUrl (lit "/_system/alive") (lit "/_system/alive") :=
  .relative (lit "_system/alive") (by decide +kernel) (by decide +kernel) (by decide +kernel)

theorem ignoreAlike_alive :
    IgnoreAlike .blank importerGo bareInfo (ignoring (lit "/_system")) (collectorFor (lit "/_system"))
      (urlMessage (lit "/_system/alive")) := by
  have hsetting : (ignoring (lit "/_system")).lookup (lit "ignored_request_uri") =
      some (.str (lit "/_system")) := by
    rw [ignoring,JObject.lookup_cons,if_pos rfl]
  have hpath : extractRequestPath .blank (urlMessage (lit "/_system/alive")) = some (lit "/_system/alive") :=
    importerGo_parseUrl requestUrl_alive
  have hbare : bareInfo.ignoredRequestPrefix = none := rfl
  have hstream : unmarshalIgnoredRequestURI (ignoring (lit "/_system")) =
      some (collectorFor (lit "/_system")).ignoredRequestURI := by
    rw [unmarshalIgnoredRequestURI,hsetting]
    rfl
  have hiff := ignoreAlike_iff .blank (fun _ _ h => importerGo_parseUrl h) hbare hstream
    (hasRequestUrl_urlMessage requestUrl_alive)
  rw [hiff,hsetting,hpath]
  refine ⟨by simp,nofun,fun path hsome => ⟨nofun,fun uri huri => .inl ?_⟩⟩
  obtain rfl := Option.some.inj hsome
  obtain rfl := Json.str.inj (Option.some.inj huri)
  decide

/-- A stream without the setting, one where it is null, and a flag that is a number. -/
theorem ignored_unlike :
    (ignoreRequest (urlMessage (lit "/cart")) (extractRequestPath .blank (urlMessage (lit "/cart"))) bareInfo =
        false ∧
      processLogMessage importerGo (collectorFor []) (urlMessage (lit "/cart")) = .ignored) ∧
    addIgnoredRequestUri .blank bareInfo [(lit "ignored_request_uri",.null)] = .error .nullString ∧
    ignoreRequest [(lit "logjam_ignore_message",.int 1)] none bareInfo = true ∧
      processLogMessage importerGo (collectorFor []) [(lit "logjam_ignore_message",.int 1)] ≠ .ignored := by
  refine ⟨⟨by decide,rfl⟩,rfl,by decide,?_⟩
  exact nofun

end Logjam.Exporter
