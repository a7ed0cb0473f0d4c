import Logjam.Graylog.PageNames
import Logjam.Importer.Controller
import Logjam.Importer.Selectors

/-! Names that are composed in buffers of a fixed size: the keys of the quants, which contain a page, and
the line the controller logs about the streams it does not know. -/
namespace Logjam.Importer
open Logjam.Library

variable {n : ℕ}

/-! Unknown streams. A parser notes their names, the controller collects the names of all parsers at every
tick and logs them once a minute. -/

/-- zhashx_insert leaves an entry that is there as it is. -/
def insertStream (streams : ZHash Unit) (stream : Bytes) : ZHash Unit := streams.insertIfNew stream ()

/-- What processor_create does about the stream of a message. -/
def noteUnknownStream (env : Env n) (unknownStreams : ZHash Unit) (msg : ParsedMsg) : ZHash Unit :=
  match env.getStreamInfo (cstr msg.stream) with
  | none => insertStream unknownStreams (cstr msg.stream)
  | some _ => unknownStreams

/-- The part of extract_parser_state that is about streams. -/
def extractUnknownStreams (traversal : Traversal) (unknownStreams unknowns : ZHash Unit) : ZHash Unit :=
  (traversal.keys unknowns).foldl insertStream unknownStreams

def collectUnknownStreams (env : Env n) (traversal : Traversal) (unknownStreams : ZHash Unit)
    (tick : Controller.Tick n) : ZHash Unit :=
  tick.parsers.foldl (fun streams msgs =>
    extractUnknownStreams traversal streams (msgs.foldl (noteUnknownStream env) ∅)) unknownStreams

/-- strcat to a buffer of the given size. -/
def strcat (size : ℕ) (dest source : Bytes) : Except Fault Bytes := sprintf size (dest ++ source)

/-- The loop of log_unknown_streams. The size does not count the commas. -/
def composeStreams : ℕ → Bytes → List Bytes → Except Fault Bytes
  | _,streams,[] => .ok streams
  | size,streams,stream::rest => do
    let streams ← if size > 0 then strcat 1024 streams (lit ",") else pure streams
    let streams ← strcat 1024 streams stream
    composeStreams (size+stream.length) streams rest

/-- The list that is logged, if there is something to log. -/
def logUnknownStreams (traversal : Traversal) (unknownStreams : ZHash Unit) : Except Fault (Option Bytes) :=
  match traversal.keys unknownStreams with
  | [] => .ok none
  | stream::rest => (composeStreams 0 [] (stream::rest)).map some

/-- The names of the streams, separated by commas; empty ones in front leave no trace. -/
def joinStreams (streams : List Bytes) : Bytes := (lit ",").intercalate (streams.dropWhile (· == []))

/-! What is collected. -/

lemma mem_insertStream {streams : ZHash Unit} {stream s : Bytes} :
    s ∈ insertStream streams stream ↔ s = stream ∨ s ∈ streams := by
  rw [insertStream,Std.ExtTreeMap.mem_insertIfNew,Std.compare_eq_iff_eq,eq_comm]

/-- The message is of a stream that is not configured. -/
def OfUnknownStream (env : Env n) (s : Bytes) (msg : ParsedMsg) : Prop :=
  env.getStreamInfo (cstr msg.stream) = none ∧ cstr msg.stream = s

lemma mem_noteUnknownStreams {env : Env n} {msgs : List ParsedMsg} {streams : ZHash Unit} {s : Bytes} :
    s ∈ msgs.foldl (noteUnknownStream env) streams ↔ (∃ msg ∈ msgs,OfUnknownStream env s msg) ∨ s ∈ streams := by
  have hnote (streams : ZHash Unit) (msg : ParsedMsg) :
      s ∈ noteUnknownStream env streams msg ↔ OfUnknownStream env s msg ∨ s ∈ streams := by
    unfold noteUnknownStream OfUnknownStream
    cases env.getStreamInfo (cstr msg.stream) with
    | none => simp [mem_insertStream,eq_comm]
    | some info => simp
  induction msgs generalizing streams with
  | nil => simp
  | cons msg msgs ih =>
    rw [List.foldl_cons]
    refine ih.trans ?_
    rw [hnote,List.exists_mem_cons_iff,or_left_comm,or_assoc]

/-! What is logged. -/

lemma sprintf_bind {size : ℕ} {text rest : Bytes} {f : Bytes → Except Fault Bytes}
    (h : text.length < size → f text = sprintf size (text ++ rest)) :
    sprintf size text >>= f = sprintf size (text ++ rest) := by
  by_cases hfits : text.length < size
  · rw [show sprintf size text = .ok text from if_pos hfits]
    exact h hfits
  · have hlonger : ¬(text ++ rest).length < size := by
      rw [List.length_append]
      omega
    rw [show sprintf size text = .error .bufferOverflow from if_neg hfits,
      show sprintf size (text ++ rest) = .error .bufferOverflow from if_neg hlonger]
    rfl

lemma intercalate_cons_eq (separator first : Bytes) (rest : List Bytes) :
    separator.intercalate (first::rest) = first ++ rest.flatMap (separator ++ ·) := by
  induction rest generalizing first with
  | nil => simp
  | cons second rest ih =>
    rw [List.intercalate_cons_cons,ih,List.flatMap_cons,List.append_assoc,List.append_assoc]

/-- What the remaining names add to the text. -/
def appendedStreams (streams : Bytes) (rest : List Bytes) : Bytes :=
  if streams = [] then joinStreams rest else rest.flatMap (lit "," ++ ·)

lemma composeStreams_eq {size : ℕ} {streams : Bytes} (rest : List Bytes) (hsize : size = 0 ↔ streams = [])
    (hfits : streams.length < 1024) :
    composeStreams size streams rest = sprintf 1024 (streams ++ appendedStreams streams rest) := by
  induction rest generalizing size streams with
  | nil =>
    have hnil : appendedStreams streams [] = [] := by
      unfold appendedStreams
      split_ifs <;> rfl
    rw [composeStreams,hnil,List.append_nil]
    exact (if_pos hfits).symm
  | cons stream rest ih =>
    rw [composeStreams]
    by_cases hzero : size = 0
    · -- the first name that is not empty has no comma before it
      have hnil := hsize.mp hzero
      subst hzero hnil
      have happended : appendedStreams [] (stream::rest) = stream ++ appendedStreams stream rest := by
        unfold appendedStreams joinStreams
        by_cases hempty : stream = []
        · simp [hempty]
        · simp [hempty,intercalate_cons_eq]
      rw [happended,List.nil_append,if_neg (lt_irrefl 0)]
      refine sprintf_bind fun hlength => ?_
      exact ih (by simp) hlength
    · have hne : streams ≠ [] := fun h => hzero (hsize.mpr h)
      have happended : streams ++ appendedStreams streams (stream::rest) =
          (streams ++ lit ",") ++ (stream ++ appendedStreams (streams ++ lit "," ++ stream) rest) := by
        simp [appendedStreams,hne]
      rw [happended,if_pos (Nat.pos_of_ne_zero hzero)]
      refine sprintf_bind fun _ => ?_
      rw [← List.append_assoc (streams ++ lit ",")]
      refine sprintf_bind fun hlength => ?_
      refine ih ?_ hlength
      simp [hzero,hne]

lemma exists_sprintf_iff {size : ℕ} {text : Bytes} : (∃ out,sprintf size text = .ok out) ↔ text.length < size := by
  unfold sprintf
  split_ifs with h
  · exact iff_of_true ⟨text,rfl⟩ h
  · refine iff_of_false ?_ h
    rintro ⟨out,hout⟩
    cases hout

lemma exists_logUnknownStreams_iff {traversal : Traversal} {unknownStreams : ZHash Unit} :
    (∃ line,logUnknownStreams traversal unknownStreams = .ok line) ↔
      (joinStreams (traversal.keys unknownStreams)).length < 1024 := by
  unfold logUnknownStreams
  cases traversal.keys unknownStreams with
  | nil => exact iff_of_true ⟨none,rfl⟩ (by decide)
  | cons stream rest =>
    have hcompose : composeStreams 0 [] (stream::rest) = sprintf 1024 (joinStreams (stream::rest)) :=
      composeStreams_eq (stream::rest) (by simp) (by decide)
    dsimp only
    rw [hcompose,← exists_sprintf_iff]
    cases sprintf 1024 (joinStreams (stream::rest)) with
    | error fault => simp [Except.map]
    | ok text => simp [Except.map]

lemma length_le_joinStreams {streams : List Bytes} {s : Bytes} (h : s ∈ streams) :
    s.length ≤ (joinStreams streams).length := by
  induction streams with
  | nil => exact absurd h List.not_mem_nil
  | cons first rest ih =>
    unfold joinStreams at ih ⊢
    by_cases hempty : first = []
    · rw [List.dropWhile_cons_of_pos (by simp [hempty])]
      rcases List.mem_cons.mp h with rfl | h
      · rw [hempty]
        exact Nat.zero_le _
      · exact ih h
    · rw [List.dropWhile_cons_of_neg (by simp [hempty]),intercalate_cons_eq,List.length_append]
      rcases List.mem_cons.mp h with rfl | h
      · exact Nat.le_add_right _ _
      · have hpart := (List.sublist_flatten_of_mem (List.mem_map_of_mem h : lit "," ++ s ∈ rest.map (lit "," ++ ·))).length_le
        rw [List.length_append] at hpart
        rw [List.flatMap_def]
        omega

/-! Quants. -/

/-- The keys under which the resources of a request are counted for its page are shorter than the buffer. -/
def QuantKeysFit (res : Resources n) (page : Bytes) (incs : Increments n) : Prop :=
  ∀ i kind d,quantKind res i = some (kind,d) → 0 < (incs.metrics i).val →
    (decimal (findBucket ((incs.metrics i).val/d)*d)).length+page.length+3 < 2000

lemma exists_addQuant_iff {ns : Bytes} {resource : Fin n} {kind : UInt8} {quant : ℕ} {quants : ZHash (Fin n → ℕ)} :
    (∃ next,addQuant ns resource kind quant quants = .ok next) ↔ (decimal quant).length+ns.length+3 < 2000 := by
  have hlength : (kind::lit "-" ++ decimal quant ++ lit "-" ++ ns).length = (decimal quant).length+ns.length+3 := by
    simp only [List.length_append,List.length_cons,lit]
    simp
    omega
  rw [← hlength,← exists_sprintf_iff]
  unfold addQuant
  cases sprintf 2000 (kind::lit "-" ++ decimal quant ++ lit "-" ++ ns) with
  | error fault => simp [bind,Except.bind]
  | ok key => simp [bind,Except.bind,pure,Except.pure]

/-- The bounds of the buckets have few digits. -/
lemma length_decimal_bucket {res : Resources n} {i : Fin n} {kind : UInt8} {d : ℕ} (h : quantKind res i = some (kind,d))
    (value : ℚ) : (decimal (findBucket (value/d)*d)).length ≤ 14 := by
  have hbucket : ∀ b ∈ buckets,b ≤ 30000000000 := by decide
  have hscale : d ≤ 1024 := by
    unfold quantKind at h
    split_ifs at h <;> simp only [Option.some.injEq,Prod.mk.injEq] at h <;> omega
  have hle := Nat.mul_le_mul (hbucket _ (findBucket_mem (value/d))) hscale
  rw [decimal,List.length_map,Nat.length_toDigits_le_iff (by decide) (by decide)]
  omega

theorem exists_processorAddQuants_iff {res : Resources n} {self : Processor n} {page : Bytes} {incs : Increments n} :
    (∃ next,processorAddQuants res self page incs = .ok next) ↔ QuantKeysFit res page incs := by
  unfold processorAddQuants
  rw [exists_foldlM_iff (c := fun i => ∀ kind d,quantKind res i = some (kind,d) → 0 < (incs.metrics i).val →
    (decimal (findBucket ((incs.metrics i).val/d)*d)).length+page.length+3 < 2000)]
  · simp [QuantKeysFit]
  intro self i
  by_cases hpos : (incs.metrics i).val > 0
  · cases hkind : quantKind res i with
    | none => simp [hpos]
    | some k =>
      obtain ⟨kind,d⟩ := k
      have hall (quants : ZHash (Fin n → ℕ)) : ∃ next,
          addQuant (lit "all_pages") i kind (findBucket ((incs.metrics i).val/d)*d) quants = .ok next := by
        have hdigits := length_decimal_bucket hkind (incs.metrics i).val
        have hpages : (lit "all_pages").length = 9 := rfl
        exact exists_addQuant_iff.mpr (by omega)
      simp only [hpos,if_true]
      constructor
      · rintro ⟨next,hnext⟩ kind' d' hk _
        obtain ⟨rfl,rfl⟩ := Prod.mk.inj (Option.some.inj hk)
        obtain ⟨quants,hquants,-⟩ := bind_eq_ok_iff.mp hnext
        exact exists_addQuant_iff.mp ⟨quants,hquants⟩
      · intro h
        obtain ⟨quants,hquants⟩ := exists_addQuant_iff.mpr (h kind d rfl trivial)
        obtain ⟨quants',hquants'⟩ := hall quants
        exact ⟨_,bind_eq_ok_iff.mpr ⟨quants,hquants,bind_eq_ok_iff.mpr ⟨quants',hquants',rfl⟩⟩⟩
  · simp [hpos]

/-- Both buffers are large enough for short names only: nothing between a message and the buffers looks at
the length of a page or of the name of a stream. -/
theorem fixedBuffers_fit_iff (env : Env n) (traversal : Traversal) (unknownStreams : ZHash Unit) (self : Processor n)
    (page : Bytes) (incs : Increments n) :
    ((∃ next,processorAddQuants env.res self page incs = .ok next) ∧
      ∃ line,logUnknownStreams traversal unknownStreams = .ok line) ↔
      QuantKeysFit env.res page incs ∧ (joinStreams (traversal.keys unknownStreams)).length < 1024 :=
  and_congr exists_processorAddQuants_iff exists_logUnknownStreams_iff

/-- An action, and a message of a stream, with a name of some length. -/
def longAction (length : ℕ) : Bytes := List.replicate length 97 ++ lit "#b"

def longMessage (length : ℕ) : ParsedMsg := ⟨List.replicate length 98,lit "logs",.obj [],false⟩

/-- One millisecond, or one object or byte, of every resource. -/
def oneOfEach : Increments 10 := ⟨1,0,0,fun _ => ⟨1,1,1⟩,∅⟩

lemma zero_notMem_replicate {length : ℕ} {c : UInt8} (hc : 0 ≠ c) : 0 ∉ List.replicate length c :=
  fun h => hc (List.eq_of_mem_replicate h)

lemma processorSetupPage_longAction (length : ℕ) :
    ∃ rest,processorSetupPage JsonLib.blank [(lit "action",.str (longAction length))] = .ok (longAction length,rest) := by
  have hzero : 0 ∉ longAction length := by
    rw [longAction,List.mem_append,not_or]
    exact ⟨zero_notMem_replicate (by decide),by decide⟩
  have hcompleted : Graylog.completed (longAction length) = longAction length := by
    refine Graylog.completed_of_mem (List.mem_append_right _ (by decide)) ?_
    rw [longAction,List.getLast?_append]
    exact (by decide : (some 98 : Option UInt8) ≠ some 35)
  have hlookup : JObject.lookup [(lit "action",.str (longAction length))] (lit "action") = some (.str (longAction length)) := rfl
  have hpage := Graylog.processorSetupPage_action JsonLib.blank hlookup
  rwa [cstr_of_notMem hzero,hcompleted] at hpage

lemma not_exists_processorAddQuants {length : ℕ} (h : 2000 ≤ length) :
    ¬∃ next,processorAddQuants sampleEnv.res processorNew (longAction length) oneOfEach = .ok next := by
  rw [exists_processorAddQuants_iff]
  intro hfit
  have hlength : (longAction length).length = length+2 := by
    rw [longAction,List.length_append,List.length_replicate]
    rfl
  have hkey := hfit 0 116 1 (by decide) (by decide)
  omega

lemma longMessage_unknown {length : ℕ} (h : 15 < length) :
    OfUnknownStream sampleEnv (List.replicate length 98) (longMessage length) := by
  have hname : cstr (longMessage length).stream = List.replicate length 98 :=
    cstr_of_notMem (zero_notMem_replicate (by decide))
  have hne : List.replicate length 98 ≠ lit "shop-production" := fun heq => by
    have hlength := congrArg List.length heq
    rw [List.length_replicate,show (lit "shop-production").length = 15 from rfl] at hlength
    omega
  refine ⟨?_,hname⟩
  rw [hname]
  unfold sampleEnv
  exact if_neg hne

lemma not_exists_logUnknownStreams (traversal : Traversal) {length : ℕ} (h : 1024 ≤ length) :
    ¬∃ line,logUnknownStreams traversal (noteUnknownStream sampleEnv ∅ (longMessage length)) = .ok line := by
  have hmem : List.replicate length 98 ∈ [longMessage length].foldl (noteUnknownStream sampleEnv) ∅ :=
    mem_noteUnknownStreams.mpr (.inl ⟨longMessage length,List.mem_singleton_self _,longMessage_unknown (by omega)⟩)
  have hle := length_le_joinStreams (traversal.mem_keys.mpr hmem)
  rw [List.length_replicate] at hle
  rw [exists_logUnknownStreams_iff]
  exact fun hlt => absurd (hle.trans_lt hlt) (by omega)

/-- A page and a stream with names that are too long. -/
theorem fixedBuffers_overflow :
    (∃ rest,processorSetupPage JsonLib.blank [(lit "action",.str (longAction 2000))] = .ok (longAction 2000,rest)) ∧
      (¬∃ next,processorAddQuants sampleEnv.res processorNew (longAction 2000) oneOfEach = .ok next) ∧
      ∀ traversal,¬∃ line,logUnknownStreams traversal (noteUnknownStream sampleEnv ∅ (longMessage 1024)) = .ok line :=
  ⟨processorSetupPage_longAction 2000,not_exists_processorAddQuants le_rfl,
    fun traversal => not_exists_logUnknownStreams traversal le_rfl⟩

end Logjam.Importer
