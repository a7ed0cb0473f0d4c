import Logjam.Graylog.Gelf
import Logjam.Library.Loop
import Logjam.Statsd.Buffer

/-! The string builder with which the full messages are composed. Its block is doubled until the text and a
terminator fit; only what is new in it is cleared. -/
namespace Logjam.Graylog
open Library Logjam.Statsd

/-- What is left of a result in an int. -/
def wrapInt (n : ℤ) : ℤ := n.bmod (2^32)

structure StrBuilder where
  str : Bytes
  size : ℤ
  pos : ℤ

/-- The size of the block is remembered as an int. -/
def sbNew (size : UInt64) : StrBuilder := ⟨List.replicate size.toNat 0,toInt32 size.toNat,0⟩

def sbString (sb : StrBuilder) : Bytes := sb.str

/-- One round of the loop that doubles the size. -/
def doubling (newPos newSize : ℤ) : ℤ ⊕ ℤ :=
  if newSize ≤ newPos then .inl (wrapInt (2*newSize)) else .inr newSize

/-- An int is zero after 32 doublings, so that more rounds make no difference. -/
def grownSize (size newPos : ℤ) : Option ℤ := whileLoop (doubling newPos) 33 (wrapInt (2*size))

/-- The block is moved or cut off. There is no telling what its new bytes are, and none has a negative size. -/
def realloc (fresh : ℕ → UInt8) (str : Bytes) (newSize : ℤ) : Except Fault Bytes :=
  if newSize < 0 then .error .assertFailed
  else .ok ((str ++ (List.range (newSize.toNat-str.length)).map fresh).take newSize.toNat)

def memset (str : Bytes) (offset count : ℤ) : Except Fault Bytes :=
  if count < 0 then .error .bufferOverflow else memcpy str offset (List.replicate count.toNat 0)

/-- The block with room for a position. -/
def sbReserve (fresh : ℕ → UInt8) (sb : StrBuilder) (newPos : ℤ) : Except Fault StrBuilder :=
  if newPos ≥ sb.size then
    match grownSize sb.size newPos with
    | none => .error .stillRunning
    | some newSize => do
      let str ← realloc fresh sb.str newSize
      let str ← memset str sb.size (newSize-sb.size)
      return ⟨str,newSize,sb.pos⟩
  else .ok sb

def sbAppend (fresh : ℕ → UInt8) (sb : StrBuilder) (str : Bytes) : Except Fault StrBuilder := do
  let newPos := toInt32 (sizeOfInt sb.pos+str.length)
  let sb ← sbReserve fresh sb newPos
  if newPos < sb.size then
    let copied ← memcpy sb.str sb.pos str
    return ⟨copied,sb.size,newPos⟩
  else .error .assertFailed

/-! The loop. -/

section Doubling
variable {newPos newSize : ℤ}

lemma wrapInt_of_lt {n : ℤ} (hlow : -2^31 ≤ n) (hhigh : n < 2^31) : wrapInt n = n :=
  Int.bmod_eq_of_le_mul_two (by omega) (by omega)

lemma wrapInt_two_mul_wrapInt (n : ℤ) : wrapInt (2*wrapInt n) = wrapInt (2*n) := by
  rw [wrapInt,wrapInt,wrapInt,Int.mul_bmod_bmod]

/-- After some rounds that have not ended the loop is where the doublings lead. -/
lemma whileLoop_doubling_add {rounds : ℕ} (h : whileLoop (doubling newPos) rounds newSize = none) (more : ℕ) :
    whileLoop (doubling newPos) (rounds+more) newSize =
      whileLoop (doubling newPos) more ((fun n => wrapInt (2*n))^[rounds] newSize) := by
  induction rounds generalizing newSize with
  | zero => rw [Nat.zero_add,Function.iterate_zero_apply]
  | succ rounds ih =>
    rw [Nat.succ_add,Function.iterate_succ_apply]
    by_cases hle : newSize ≤ newPos
    · simp only [whileLoop,doubling,if_pos hle] at h ⊢
      exact ih h
    · simp only [whileLoop,doubling,if_neg hle,reduceCtorEq] at h

lemma iterate_doubling (rounds : ℕ) :
    (fun n => wrapInt (2*n))^[rounds] (wrapInt newSize) = wrapInt (2^rounds*newSize) := by
  induction rounds generalizing newSize with
  | zero => rw [Function.iterate_zero_apply,pow_zero,one_mul]
  | succ rounds ih => rw [Function.iterate_succ_apply,wrapInt_two_mul_wrapInt,ih,pow_succ,mul_assoc]

/-- The loop has ended by then, or it never does. -/
theorem grownSize_eq_none_iff (size newPos : ℤ) : grownSize size newPos = none ↔
    ∀ rounds, whileLoop (doubling newPos) rounds (wrapInt (2*size)) = none := by
  constructor
  · intro h rounds
    have hshort : whileLoop (doubling newPos) 32 (wrapInt (2*size)) = none := by
      rw [Option.eq_none_iff_forall_ne_some]
      intro grown hgrown
      exact Option.some_ne_none grown ((whileLoop_mono (by omega) hgrown).symm.trans h)
    have hzero : (fun n => wrapInt (2*n))^[32] (wrapInt (2*size)) = 0 := by
      rw [iterate_doubling]
      exact Int.bmod_eq_zero_of_dvd (Dvd.intro _ rfl)
    have hmore := whileLoop_doubling_add hshort
    simp only [hzero] at hmore
    -- the 33rd round goes on from zero, and so does every later one
    have hround : doubling newPos 0 = .inl 0 := by
      have hlast := (hmore 1).symm.trans h
      by_cases hle : 0 ≤ newPos
      · rw [doubling,if_pos hle]
        rfl
      · simp only [whileLoop,doubling,if_neg hle,reduceCtorEq] at hlast
    have hnever : whileLoop (doubling newPos) (32+rounds) (wrapInt (2*size)) = none := by
      rw [hmore rounds]
      exact whileLoop_eq_none (P := (· = 0)) (fun s hs => ⟨0,hs ▸ hround,rfl⟩) rfl rounds
    rw [Option.eq_none_iff_forall_ne_some]
    intro grown hgrown
    exact Option.some_ne_none grown ((whileLoop_mono (by omega) hgrown).symm.trans hnever)
  · intro h
    exact h 33

/-- A position below 2^29 is passed before the size overflows. -/
lemma whileLoop_doubling (hpos : newPos < 2^29) {rounds : ℕ} (hsize : 0 < newSize) (hle : newSize ≤ 2^30)
    (hrounds : newPos < 2^rounds*newSize) :
    ∃ grown, whileLoop (doubling newPos) (rounds+1) newSize = some grown ∧ newPos < grown ∧ newSize ≤ grown ∧
      grown ≤ 2^30 := by
  induction rounds generalizing newSize with
  | zero =>
    have hlt : ¬newSize ≤ newPos := by omega
    exact ⟨newSize,by simp only [whileLoop,doubling,if_neg hlt],by omega,le_rfl,hle⟩
  | succ rounds ih =>
    by_cases hgo : newSize ≤ newPos
    · have hwrap : wrapInt (2*newSize) = 2*newSize := wrapInt_of_lt (by omega) (by omega)
      have hrounds' : newPos < 2^rounds*(2*newSize) := by
        rw [← mul_assoc,← pow_succ]
        exact hrounds
      obtain ⟨grown,hloop,hlt,hgrown,hmax⟩ := ih (by omega) (by omega) hrounds'
      refine ⟨grown,?_,hlt,by omega,hmax⟩
      rw [whileLoop,doubling,if_pos hgo,hwrap]
      exact hloop
    · exact ⟨newSize,by simp only [whileLoop,doubling,if_neg hgo],by omega,le_rfl,hle⟩

lemma grownSize_of_lt {size : ℤ} (hpos : newPos < 2^29) (hsize : 0 < size) (hle : size ≤ newPos) :
    ∃ grown, grownSize size newPos = some grown ∧ newPos < grown ∧ size ≤ grown := by
  have hwrap : wrapInt (2*size) = 2*size := wrapInt_of_lt (by omega) (by omega)
  have hrounds : newPos < 2^32*(2*size) := by omega
  obtain ⟨grown,hloop,hlt,hgrown,-⟩ := whileLoop_doubling hpos (by omega) (by omega) hrounds
  refine ⟨grown,?_,hlt,by omega⟩
  rw [grownSize,hwrap]
  exact hloop

end Doubling

/-! The invariant. -/

/-- The block starts with a text, and all bytes from its end to the size are NUL. -/
structure Holds (sb : StrBuilder) (text : Bytes) : Prop where
  pos_eq : sb.pos = text.length
  pos_lt : sb.pos < sb.size
  str_eq : ∃ rest, sb.str = text ++ (List.replicate (sb.size-sb.pos).toNat 0 ++ rest)

section Holds
variable {fresh : ℕ → UInt8} {sb : StrBuilder} {text str : Bytes}

lemma holds_iff : Holds sb text ↔ ∃ (room : ℕ) (rest : Bytes), 0 < room ∧
    sb = ⟨text ++ (List.replicate room 0 ++ rest),text.length+room,text.length⟩ := by
  obtain ⟨block,size,pos⟩ := sb
  constructor
  · rintro ⟨hpos,hlt,rest,hstr⟩
    dsimp only at hpos hlt hstr
    subst hpos
    refine ⟨(size-text.length).toNat,rest,by omega,?_⟩
    rw [hstr,Int.toNat_of_nonneg (by omega),add_sub_cancel]
  · rintro ⟨room,rest,hroom,heq⟩
    cases heq
    refine ⟨rfl,by dsimp only; omega,rest,?_⟩
    dsimp only
    rw [add_sub_cancel_left,Int.toNat_natCast]

lemma holds_sbNew {size : UInt64} (h : 0 < toInt32 size.toNat) : Holds (sbNew size) [] := by
  have hle : (toInt32 size.toNat).toNat ≤ size.toNat := by
    have hmod := Nat.mod_le size.toNat (2^32)
    unfold toInt32 at h ⊢
    split_ifs at h ⊢ <;> omega
  refine ⟨rfl,h,List.replicate (size.toNat-(toInt32 size.toNat).toNat) 0,?_⟩
  rw [sbNew,List.nil_append,List.replicate_append_replicate,sub_zero,Nat.add_sub_cancel' hle]

/-- What fits the new block is kept. -/
lemma realloc_append (fresh : ℕ → UInt8) {kept : Bytes} (rest : Bytes) {newSize : ℕ} (h : kept.length ≤ newSize) :
    ∃ rest', realloc fresh (kept ++ rest) newSize = .ok (kept ++ rest') ∧ kept.length+rest'.length = newSize := by
  refine ⟨(rest ++ (List.range (newSize-(kept ++ rest).length)).map fresh).take (newSize-kept.length),?_,?_⟩
  · rw [realloc,if_neg (by omega),Int.toNat_natCast,List.append_assoc,List.take_append,List.take_of_length_le h]
  · rw [List.length_take,List.length_append,List.length_map,List.length_range,List.length_append]
    omega

lemma memset_append (kept rest : Bytes) :
    memset (kept ++ rest) kept.length rest.length = .ok (kept ++ List.replicate rest.length 0) := by
  rw [memset,if_neg (by omega),Int.toNat_natCast,memcpy_eq (by simp),List.take_left,List.length_replicate,
    ← List.length_append,List.drop_length,List.append_nil]

lemma Holds.reserve (h : Holds sb text) {newPos : ℤ} (hpos : newPos < 2^29) :
    Yields (sbReserve fresh sb newPos) fun sb' => Holds sb' text ∧ newPos < sb'.size := by
  unfold sbReserve
  by_cases hgrow : newPos ≥ sb.size
  · rw [if_pos hgrow]
    obtain ⟨room,rest,hroom,rfl⟩ := holds_iff.mp h
    dsimp only at hgrow ⊢
    obtain ⟨grown,hgrown,hlt,hle⟩ := grownSize_of_lt hpos (by omega) hgrow
    rw [hgrown]
    lift grown to ℕ using by omega
    have hkept : (text ++ List.replicate room 0).length = text.length+room := by
      rw [List.length_append,List.length_replicate]
    have hfits : (text ++ List.replicate room (0 : UInt8)).length ≤ grown := by omega
    obtain ⟨rest',hrealloc,hlength⟩ := realloc_append fresh rest hfits
    have hmemset := memset_append (text ++ List.replicate room 0) rest'
    rw [hkept] at hlength hmemset
    have hcount : (grown : ℤ)-(text.length+room) = rest'.length := by omega
    refine ⟨⟨text ++ List.replicate room 0 ++ List.replicate rest'.length 0,grown,text.length⟩,?_,?_,hlt⟩
    · rw [← List.append_assoc]
      refine bind_eq_ok_iff.mpr ⟨_,hrealloc,bind_eq_ok_iff.mpr ⟨_,?_,rfl⟩⟩
      rw [hcount]
      exact hmemset
    · refine holds_iff.mpr ⟨room+rest'.length,[],by omega,?_⟩
      rw [List.append_nil,List.append_assoc,List.replicate_append_replicate,← hlength]
      push_cast
      rw [add_assoc]
  · rw [if_neg hgrow]
    exact .ok ⟨h,lt_of_not_ge hgrow⟩

/-- An append keeps the invariant, while the text stays shorter than 2^29. -/
theorem Holds.append (h : Holds sb text) (hshort : text.length+str.length < 2^29) :
    Yields (sbAppend fresh sb str) fun sb' => Holds sb' (text ++ str) := by
  have hnewPos : toInt32 (sizeOfInt sb.pos+str.length) = text.length+str.length := by
    have hsize : sizeOfInt sb.pos = text.length := by
      rw [h.pos_eq,sizeOfInt]
      omega
    rw [hsize,toInt32_of_lt (by omega)]
    push_cast
    rfl
  unfold sbAppend
  dsimp only
  rw [hnewPos]
  refine (h.reserve (by omega)).bind ?_
  rintro sb' ⟨hsb',hlt⟩
  obtain ⟨room,rest,hroom,rfl⟩ := holds_iff.mp hsb'
  dsimp only at hlt ⊢
  rw [if_pos hlt,memcpy_eq (by simp only [List.length_append,List.length_replicate]; omega)]
  refine .ok (holds_iff.mpr ⟨room-str.length,rest,by omega,?_⟩)
  have hdrop : (text ++ (List.replicate room 0 ++ rest)).drop (text.length+str.length) =
      List.replicate (room-str.length) 0 ++ rest := by
    rw [List.drop_length_add_append,List.drop_append_of_le_length (by rw [List.length_replicate]; omega),
      List.drop_replicate]
  rw [List.take_left,hdrop]
  congr 1
  · rw [List.length_append]
    omega
  · rw [List.length_append]
    push_cast
    rfl

lemma Holds.appends (h : Holds sb text) {parts : List Bytes} (hshort : text.length+parts.flatten.length < 2^29) :
    Yields (parts.foldlM (sbAppend fresh) sb) fun sb' => Holds sb' (text ++ parts.flatten) := by
  induction parts generalizing sb text with
  | nil => exact .ok (by rwa [List.flatten_nil,List.append_nil])
  | cons part parts ih =>
    rw [List.flatten_cons,List.length_append] at hshort
    rw [List.foldlM_cons,List.flatten_cons,← List.append_assoc]
    refine (h.append (by omega)).bind fun sb' hsb' => ih hsb' ?_
    rw [List.length_append]
    omega

/-- The text is followed by a terminator. -/
lemma Holds.take_sbString (h : Holds sb text) : (sbString sb).take (text.length+1) = text ++ [0] := by
  obtain ⟨room,rest,hroom,rfl⟩ := holds_iff.mp h
  obtain ⟨room,rfl⟩ := Nat.exists_eq_add_of_lt hroom
  rw [sbString,List.take_length_add_append,Nat.zero_add,List.replicate_succ]
  rfl

end Holds

/-- Whatever is appended to a new builder is what it holds. -/
def Concatenates (fresh : ℕ → UInt8) (size : UInt64) : Prop :=
  ∀ parts : List Bytes, parts.flatten.length < 2^29 → ∃ sb, parts.foldlM (sbAppend fresh) (sbNew size) = .ok sb ∧
    (sbString sb).take (parts.flatten.length+1) = parts.flatten ++ [0] ∧ sb.pos = parts.flatten.length ∧
    sb.pos < sb.size ∧ ∀ i : ℕ, sb.pos ≤ i → i < sb.size → (sbString sb)[i]? = some 0

/-- The builder works if its size is positive as an int, as it is when it is at least one and less than 2^31. -/
theorem concatenates_iff (fresh : ℕ → UInt8) (size : UInt64) : Concatenates fresh size ↔ 0 < toInt32 size.toNat := by
  constructor
  · intro h
    obtain ⟨sb,hsb,-,hpos,hlt,-⟩ := h [] (by decide)
    obtain rfl := Except.ok.inj hsb
    exact hlt
  · intro h parts hshort
    have hlength : ([] : Bytes).length+parts.flatten.length < 2^29 := by rwa [List.length_nil,Nat.zero_add]
    obtain ⟨sb,hsb,hholds⟩ := (holds_sbNew h).appends hlength
    rw [List.nil_append] at hholds
    refine ⟨sb,hsb,hholds.take_sbString,hholds.pos_eq,hholds.pos_lt,?_⟩
    obtain ⟨room,rest,hroom,rfl⟩ := holds_iff.mp hholds
    intro i hlow hhigh
    dsimp only at hlow hhigh
    rw [sbString,List.getElem?_append_right (by omega),List.getElem?_append_left (by rw [List.length_replicate]; omega),
      List.getElem?_replicate_of_lt (by omega)]

/-- The size 2^31 is negative as an int, and no doubling makes it positive. -/
theorem sbNew_two_pow_31 :
    (sbNew 2147483648).pos = 0 ∧ (sbNew 2147483648).size = -2147483648 ∧
      sbAppend (fun _ => 0) (sbNew 2147483648) (lit "a") = .error .stillRunning ∧
      (∀ rounds, whileLoop (doubling 1) rounds (wrapInt (2*(-2147483648))) = none) ∧
      ¬Concatenates (fun _ => 0) 2147483648 := by
  have hsize : (sbNew 2147483648).size = -2147483648 := by decide +kernel
  have hgrown : grownSize (-2147483648) 1 = none := by decide +kernel
  refine ⟨rfl,hsize,?_,(grownSize_eq_none_iff _ _).mp hgrown,?_⟩
  · have hnewPos : toInt32 (sizeOfInt (sbNew 2147483648).pos+(lit "a").length) = 1 := by decide +kernel
    rw [sbAppend,hnewPos,sbReserve,hsize,if_pos (by decide),hgrown]
    rfl
  · intro h
    obtain ⟨sb,hsb,-,-,hlt,-⟩ := h [] (by decide)
    obtain rfl := Except.ok.inj hsb
    rw [hsize] at hlt
    exact absurd hlt (by decide)

/-! The full message of a GELF message. -/

/-- One round of the loop over the lines, with the builder. -/
def sbAppendLine (fresh : ℕ → UInt8) (lib : JsonLib) (state : ℤ × StrBuilder) : Json → Except GelfFault (ℤ × StrBuilder)
  | .arr parts => do
    let l := jsonObjectGetInt lib (parts.getD 0 .null)
    let level := if l > state.1 then l else state.1
    let name ← atLevel logLevelsNames l
    let sb ← ([name,lit " "].foldlM (sbAppend fresh) state.2).mapError .other
    let time ← measured (jsonObjectGetString lib (parts.getD 1 .null))
    let sb ← ([time,lit " "].foldlM (sbAppend fresh) sb).mapError .other
    let text ← measured (jsonObjectGetString lib (parts.getD 2 .null))
    let sb ← ([text,[10]].foldlM (sbAppend fresh) sb).mapError .other
    return (level,sb)
  | _ => .ok state

def sbInitialSize : UInt64 := 1024*10

/-- The full message as it is composed. -/
def sbFullMessage (fresh : ℕ → UInt8) (lib : JsonLib) (gelf request : JObject) : Except GelfFault (JObject × ℤ) :=
  match linesOf request with
  | none => .ok (gelf,severityOf lib request)
  | some lines => do
    let state ← lines.foldlM (sbAppendLine fresh lib) (severityOf lib request,sbNew sbInitialSize)
    return (gelf.add (lit "full_message") (.str (cstr (sbString state.2))),state.1)

section FullMessage
variable (fresh : ℕ → UInt8) {lib : JsonLib} {gelf request : JObject} {sb : StrBuilder} {text : Bytes} {level : ℤ}

lemma Holds.pair (h : Holds sb text) {a b : Bytes} (hshort : (text ++ a ++ b).length < 2^29) :
    ∃ sb', ([a,b].foldlM (sbAppend fresh) sb).mapError GelfFault.other = .ok sb' ∧ Holds sb' (text ++ a ++ b) := by
  have hflatten : [a,b].flatten = a ++ b := by simp
  have hlength : text.length+[a,b].flatten.length < 2^29 := by
    rwa [hflatten,← List.length_append,← List.append_assoc]
  obtain ⟨sb',hsb',hholds⟩ := h.appends hlength
  rw [hflatten,← List.append_assoc] at hholds
  exact ⟨sb',mapError_eq_ok_iff.mpr hsb',hholds⟩

lemma Holds.line (h : Holds sb text) {line : Json} {next : ℤ × Bytes}
    (hline : appendLine lib (level,text) line = .ok next) (hshort : next.2.length < 2^29) :
    ∃ sb', sbAppendLine fresh lib (level,sb) line = .ok (next.1,sb') ∧ Holds sb' next.2 := by
  cases line with
  | arr parts =>
    obtain ⟨name,hname,hline⟩ := bind_eq_ok_iff.mp hline
    obtain ⟨time,htime,hline⟩ := bind_eq_ok_iff.mp hline
    obtain ⟨words,hwords,hline⟩ := bind_eq_ok_iff.mp hline
    obtain rfl := Except.ok.inj hline
    have h₃ : (text ++ name ++ lit " " ++ time ++ lit " " ++ words ++ [10]).length < 2^29 := hshort
    have h₂ : (text ++ name ++ lit " " ++ time ++ lit " ").length < 2^29 := by
      simp only [List.length_append] at h₃ ⊢
      omega
    have h₁ : (text ++ name ++ lit " ").length < 2^29 := by
      simp only [List.length_append] at h₂ ⊢
      omega
    obtain ⟨sb₁,hsb₁,hheld⟩ := h.pair fresh h₁
    obtain ⟨sb₂,hsb₂,hheld⟩ := hheld.pair fresh h₂
    obtain ⟨sb₃,hsb₃,hheld⟩ := hheld.pair fresh h₃
    refine ⟨sb₃,?_,hheld⟩
    exact bind_eq_ok_iff.mpr ⟨name,hname,bind_eq_ok_iff.mpr ⟨sb₁,hsb₁,bind_eq_ok_iff.mpr ⟨time,htime,
      bind_eq_ok_iff.mpr ⟨sb₂,hsb₂,bind_eq_ok_iff.mpr ⟨words,hwords,bind_eq_ok_iff.mpr ⟨sb₃,hsb₃,rfl⟩⟩⟩⟩⟩⟩
  | _ =>
    obtain rfl := Except.ok.inj hline
    exact ⟨sb,rfl,h⟩

lemma length_appendLine {line : Json} {state next : ℤ × Bytes} (h : appendLine lib state line = .ok next) :
    state.2.length ≤ next.2.length := by
  cases line with
  | arr parts =>
    obtain ⟨name,-,h⟩ := bind_eq_ok_iff.mp h
    obtain ⟨time,-,h⟩ := bind_eq_ok_iff.mp h
    obtain ⟨words,-,h⟩ := bind_eq_ok_iff.mp h
    obtain rfl := Except.ok.inj h
    simp only [List.length_append]
    omega
  | _ =>
    obtain rfl := Except.ok.inj h
    rfl

/-- The text only gets longer, so it is short after every line if it is in the end. -/
lemma Holds.lines (h : Holds sb text) {lines : List Json} {final : ℤ × Bytes}
    (hlines : lines.foldlM (appendLine lib) (level,text) = .ok final) (hshort : final.2.length < 2^29) :
    ∃ sb', lines.foldlM (sbAppendLine fresh lib) (level,sb) = .ok (final.1,sb') ∧ Holds sb' final.2 := by
  induction lines generalizing sb text level with
  | nil =>
    obtain rfl := Except.ok.inj hlines
    exact ⟨sb,rfl,h⟩
  | cons line lines ih =>
    rw [List.foldlM_cons] at hlines ⊢
    obtain ⟨next,hline,hlines⟩ := bind_eq_ok_iff.mp hlines
    have hgrows : next.2.length ≤ final.2.length := by
      have hkeep : Ensures (lines.foldlM (appendLine lib) next) fun state => next.2.length ≤ state.2.length :=
        Ensures.foldlM (fun state hstate _ _ _ hnext => hstate.trans (length_appendLine hnext)) le_rfl
      exact hkeep final hlines
    obtain ⟨sb₁,hsb₁,hheld⟩ := h.line fresh hline (by omega)
    obtain ⟨sb',hsb',hheld⟩ := ih hheld hlines
    exact ⟨sb',bind_eq_ok_iff.mpr ⟨_,hsb₁,hsb'⟩,hheld⟩

lemma Holds.cstr_sbString (h : Holds sb text) : cstr (sbString sb) = cstr text := by
  obtain ⟨room,rest,hroom,rfl⟩ := holds_iff.mp h
  obtain ⟨room,rfl⟩ := Nat.exists_eq_add_of_lt hroom
  rw [sbString,Nat.zero_add,List.replicate_succ,List.cons_append,cstr,cstr,List.takeWhile_append]
  split_ifs with hall
  · rw [List.takeWhile_cons_of_neg (by decide),List.append_nil,List.takeWhile_eq_self_iff.mpr]
    exact List.all_eq_true.mp ((List.takeWhile_prefix _).eq_of_length hall ▸ List.all_takeWhile)
  · rfl

/-- The builder composes the text of the lines. -/
theorem sbFullMessage_eq {result : JObject × ℤ} (h : fullMessage lib gelf request = .ok result)
    (hshort : ∀ lines state, linesOf request = some lines →
      lines.foldlM (appendLine lib) (severityOf lib request,[]) = .ok state → state.2.length < 2^29) :
    sbFullMessage fresh lib gelf request = .ok result := by
  unfold fullMessage at h
  unfold sbFullMessage
  cases hlines : linesOf request with
  | none =>
    rw [hlines] at h
    exact h
  | some lines =>
    rw [hlines] at h
    obtain ⟨state,hstate,h⟩ := bind_eq_ok_iff.mp h
    have hnew : Holds (sbNew sbInitialSize) [] := holds_sbNew (by decide)
    obtain ⟨sb,hsb,hheld⟩ := hnew.lines fresh hstate (hshort lines state hlines hstate)
    refine bind_eq_ok_iff.mpr ⟨_,hsb,?_⟩
    rw [hheld.cstr_sbString]
    exact h

end FullMessage

end Logjam.Graylog
