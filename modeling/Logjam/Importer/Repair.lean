import Logjam.Importer.RequestWriter

/-! Texts that are not UTF-8 are taken for Windows-1252 and converted. The converter writes all of the
text, but tells its callers a length that is one byte short. -/
namespace Logjam.Importer
open Logjam.Library

variable {str key : Bytes}

/-! Windows-1252. -/

/-- The characters of the bytes from 128 to 159; five of the bytes have none. -/
def windows1252Specials : List Char :=
  [0x20AC,0xFFFD,0x201A,0x192,0x201E,0x2026,0x2020,0x2021,0x2C6,0x2030,0x160,0x2039,0x152,0xFFFD,0x17D,0xFFFD,
    0xFFFD,0x2018,0x2019,0x201C,0x201D,0x2022,0x2013,0x2014,0x2DC,0x2122,0x161,0x203A,0x153,0xFFFD,0x17E,0x178].map Char.ofNat

/-- The image of a byte. A NUL cannot be part of a C string and is written as an escape sequence; the other
characters outside of the special ones have the number of their byte. -/
def windows1252 (c : UInt8) : List Char :=
  if c = 0 then "\\u0000".toList
  else if 128 ≤ c.toNat ∧ c.toNat < 160 then [windows1252Specials.getD (c.toNat-128) default]
  else [Char.ofNat c.toNat]

/-- The table of the converter is that of the code page. -/
lemma win1252ToUtf8_eq : win1252ToUtf8 = windows1252Specials ++ (List.range 96).map fun i => Char.ofNat (160+i) := by
  -- row by row, since it takes long to decode a text
  have hrows (a b c d e f g h : List Char) :
      (String.ofList a ++ String.ofList b ++ String.ofList c ++ String.ofList d ++ String.ofList e ++ String.ofList f ++
        String.ofList g ++ String.ofList h).toList = a ++ b ++ c ++ d ++ e ++ f ++ g ++ h := by
    simp only [String.toList_append,String.toList_ofList]
  let row (first : ℕ) : List Char := (List.range 16).map fun i => Char.ofNat (first+i)
  exact hrows (windows1252Specials.take 16) (windows1252Specials.drop 16) (row 160) (row 176) (row 192) (row 208) (row 224) (row 240)

lemma win1252Byte_eq : win1252Byte = fun c => (windows1252 c).flatMap String.utf8EncodeChar := by
  funext c
  rw [win1252Byte,win1252ToUtf8_eq]
  revert c
  exact forall_uint8 (by decide +kernel)

lemma length_win1252Byte (c : UInt8) : 1 ≤ (win1252Byte c).length ∧ (win1252Byte c).length ≤ 6 ∧
    (128 ≤ c.toNat → 2 ≤ (win1252Byte c).length) := by
  rw [win1252Byte_eq]
  revert c
  exact forall_uint8 (by decide +kernel)

lemma convertToWin1252_text (str : Bytes) :
    (convertToWin1252 str).1 = (str.flatMap windows1252).flatMap String.utf8EncodeChar := by
  rw [convertToWin1252,List.flatMap_assoc,win1252Byte_eq]

lemma convertToWin1252_length (str : Bytes) : (convertToWin1252 str).1.length ≤ 6*str.length := by
  rw [convertToWin1252]
  induction str with
  | nil => rfl
  | cons c str ih =>
    have hc := (length_win1252Byte c).2.1
    rw [List.flatMap_cons,List.length_append,List.length_cons]
    dsimp only at ih
    omega

/-- The text is valid, no longer than its buffer, and has the images of all bytes. -/
structure Converts (str : Bytes) : Prop where
  valid : Utf8 (convertToWin1252 str).1
  length_le : (convertToWin1252 str).1.length ≤ 6*str.length
  images : (convertToWin1252 str).1 = (str.flatMap windows1252).flatMap String.utf8EncodeChar

lemma converts (str : Bytes) : Converts str :=
  ⟨⟨_,convertToWin1252_text str⟩,convertToWin1252_length str,convertToWin1252_text str⟩

/-! What the callers make of it. -/

/-- The agent that agents_add_agent selects. -/
def safeAgent (agent : Bytes) : Bytes :=
  if bsonUtf8Validate agent then agent
  else
    let (safe,agentLen) := convertToWin1252 agent
    bsonText safe agentLen

/-- The texts that are stored for a text that is converted. -/
def StoredFor (str s : Bytes) : Prop :=
  (∃ b key,bsonAppendWin1252 b key str = b ++ [(key,.utf8 s)]) ∨ (bsonUtf8Validate str = false ∧ safeAgent str = s)

lemma convertToWin1252_eq_nil_iff : (convertToWin1252 str).1 = [] ↔ str = [] := by
  rw [convertToWin1252,List.flatMap_eq_nil_iff]
  constructor
  · intro h
    refine List.eq_nil_iff_forall_not_mem.mpr fun c hc => ?_
    have hlength := (length_win1252Byte c).1
    rw [h c hc] at hlength
    exact absurd hlength (by decide)
  · rintro rfl c hc
    cases hc

/-- The length that is returned leaves out the last byte. -/
lemma bsonText_convertToWin1252 (str : Bytes) :
    bsonText (convertToWin1252 str).1 (convertToWin1252 str).2 = (convertToWin1252 str).1.dropLast := by
  have hlen : (convertToWin1252 str).2 = ((convertToWin1252 str).1.length : ℤ)-1 := rfl
  rw [hlen,bsonText,List.dropLast_eq_take]
  split_ifs with hneg
  · have hnil : (convertToWin1252 str).1 = [] := List.length_eq_zero_iff.mp (by omega)
    rw [hnil]
    rfl
  · congr 1
    omega

lemma storedFor_iff {s : Bytes} : StoredFor str s ↔ s = (convertToWin1252 str).1.dropLast := by
  constructor
  · rintro (⟨b,key,h⟩ | ⟨hvalid,rfl⟩)
    · have h' := List.append_cancel_left h
      rw [← bsonText_convertToWin1252]
      simp only [List.cons.injEq,Prod.mk.injEq,Bson.utf8.injEq,true_and,and_true] at h'
      exact h'.symm
    · rw [safeAgent,hvalid]
      exact bsonText_convertToWin1252 str
  · rintro rfl
    refine .inl ⟨[],[],?_⟩
    rw [bsonAppendWin1252,← bsonText_convertToWin1252]

lemma storedFor_whole_iff : (∀ s,StoredFor str s → s = (convertToWin1252 str).1) ↔ str = [] := by
  simp only [storedFor_iff,forall_eq]
  refine Iff.trans ?_ convertToWin1252_eq_nil_iff
  constructor
  · intro h
    have hlength := congrArg List.length h
    rw [List.length_dropLast] at hlength
    exact List.length_eq_zero_iff.mp (by omega)
  · intro h
    rw [h]
    rfl

lemma win1252Byte_low {c : UInt8} (h : c.toNat < 128) : ∀ b ∈ win1252Byte c,b.toNat < 128 := by
  have hmask : c &&& 0x80 = 0 := of_not_not fun hmask => absurd ((mask_high c).mp hmask) (by omega)
  have hescape : lit "\\u0000" = [92,117,48,48,48,48] := by decide +kernel
  rw [win1252Byte,if_pos hmask,hescape]
  split_ifs
  · rw [List.forall_mem_singleton]
    exact h
  · decide +kernel

/-- The images of the upper half are single characters of several bytes. -/
lemma win1252Byte_high {c : UInt8} (h : 128 ≤ c.toNat) :
    ∃ d,win1252Byte c = String.utf8EncodeChar d ∧ 2 ≤ (win1252Byte c).length :=
  ⟨_,by rw [win1252Byte,if_neg ((mask_high c).mpr h)],(length_win1252Byte c).2.2 h⟩

lemma dropLast_encodeChar_not_utf8 {d : Char} (h : 2 ≤ (String.utf8EncodeChar d).length) :
    ¬Utf8 (String.utf8EncodeChar d).dropLast := by
  obtain ⟨lead,rest,hd,-,-,hsize⟩ := encodeChar_eq_cons d
  rw [hd,List.length_cons] at h
  have hne : rest ≠ [] := List.ne_nil_of_length_pos (by omega)
  rw [hd,List.dropLast_cons_of_ne_nil hne]
  intro hutf
  have hle := hutf.leadSize_le
  rw [List.length_dropLast] at hle
  omega

lemma storedFor_valid_iff : (∀ s,StoredFor str s → Utf8 s) ↔ ∀ c ∈ str.getLast?,c.toNat < 128 := by
  simp only [storedFor_iff,forall_eq]
  rcases List.eq_nil_or_concat str with rfl | ⟨init,c,rfl⟩
  · exact iff_of_true utf8_nil (by simp)
  have hne : win1252Byte c ≠ [] := List.ne_nil_of_length_pos (length_win1252Byte c).1
  have htext : (convertToWin1252 (init.concat c)).1.dropLast = (convertToWin1252 init).1 ++ (win1252Byte c).dropLast := by
    rw [List.concat_eq_append,convertToWin1252,List.flatMap_append,List.flatMap_singleton,List.dropLast_append_of_ne_nil hne]
    rfl
  have hlast : (init.concat c).getLast? = some c := by rw [List.concat_eq_append,List.getLast?_concat]
  simp only [htext,hlast,Option.mem_some_iff,forall_eq']
  constructor
  · intro h
    by_contra! hhigh
    obtain ⟨d,hd,htwo⟩ := win1252Byte_high hhigh
    rw [hd] at htwo h
    exact dropLast_encodeChar_not_utf8 htwo ((converts init).valid.of_append h)
  · intro hlow
    exact (converts init).valid.append (utf8_of_ascii fun b hb => win1252Byte_low hlow b (List.dropLast_subset _ hb))

theorem convertToWin1252_keeps_iff (str : Bytes) :
    Converts str ∧ ((convertToWin1252 str).2 = (convertToWin1252 str).1.length ↔ False) ∧
      ((∀ s,StoredFor str s → s = (convertToWin1252 str).1) ↔ str = []) ∧
      ((∀ s,StoredFor str s → Utf8 s) ↔ ∀ c ∈ str.getLast?,c.toNat < 128) := by
  refine ⟨converts str,iff_of_false ?_ not_false,storedFor_whole_iff,storedFor_valid_iff⟩
  have hlen : (convertToWin1252 str).2 = ((convertToWin1252 str).1.length : ℤ)-1 := rfl
  omega

/-- Half of the only character is stored. -/
theorem convertToWin1252_umlaut :
    convertToWin1252 [228] = ([195,164],1) ∧ bsonAppendWin1252 [] (lit "name") [228] = [(lit "name",.utf8 [195])] ∧
      safeAgent [228] = [195] ∧ ¬Utf8 [195] := by
  have hconvert : convertToWin1252 [228] = ([195,164],1) := by
    rw [convertToWin1252,win1252Byte_eq]
    decide +kernel
  refine ⟨hconvert,?_,?_,by rw [← validateUTF8_iff]; decide⟩
  · rw [bsonAppendWin1252,hconvert]
    rfl
  · rw [safeAgent,hconvert]
    decide +kernel

/-! Keys. -/

/-- By how much a byte of a key exceeds its share of four bytes once it is escaped and converted. -/
def spill (c : UInt8) : ℤ :=
  if c = 46 then 3
  else if c = 36 then 0
  else if c.toNat < 128 then -3
  else if c.toNat < 160 ∧ c ∉ ([0x83,0x88,0x8A,0x8C,0x8E,0x98,0x9A,0x9C,0x9E,0x9F] : Bytes) then -1
  else -2

/-- What copy_replace_dots_and_dollars writes for one byte. -/
def escapeByte (c : UInt8) : Bytes := if c = 46 then [226,128,164] else if c = 36 then [194,164] else [c]

lemma copyReplaceDotsAndDollars_cons (c : UInt8) (key : Bytes) :
    copyReplaceDotsAndDollars (c::key) = escapeByte c ++ copyReplaceDotsAndDollars key := by
  rw [copyReplaceDotsAndDollars,List.flatMap_cons]
  rfl

lemma length_escapeByte_flatMap (c : UInt8) : c ≠ 0 → (((escapeByte c).flatMap win1252Byte).length : ℤ) = 4+spill c := by
  rw [win1252Byte_eq]
  revert c
  exact forall_uint8 (by decide +kernel)

lemma length_convert_escaped (h : 0 ∉ key) :
    ((convertToWin1252 (copyReplaceDotsAndDollars key)).1.length : ℤ) = 4*key.length+(key.map spill).sum := by
  induction key with
  | nil => rfl
  | cons c key ih =>
    obtain ⟨hc,hkey⟩ := not_or.mp (fun hmem => h (List.mem_cons.mpr hmem))
    have hbyte := length_escapeByte_flatMap c (Ne.symm hc)
    have hrest := ih hkey
    rw [convertToWin1252] at hrest ⊢
    rw [copyReplaceDotsAndDollars_cons,List.flatMap_append,List.length_append,List.map_cons,List.sum_cons,List.length_cons]
    push_cast
    linarith

/-- The escape sequences are characters of their own, so that nothing is valid only because of them. -/
lemma utf8_of_escaped (init : Bytes) (h : Utf8 (init ++ copyReplaceDotsAndDollars key)) : Utf8 (init ++ key) := by
  induction key generalizing init with
  | nil => exact h
  | cons c key ih =>
    have hescape (d : Char) (hd : escapeByte c = String.utf8EncodeChar d) (hc : c.toNat < 128) : Utf8 (init ++ c::key) := by
      rw [copyReplaceDotsAndDollars_cons,hd] at h
      obtain ⟨lead,rest,hcons,hlead,-,-⟩ := encodeChar_eq_cons d
      have hhead : ∀ x ∈ (String.utf8EncodeChar d ++ copyReplaceDotsAndDollars key).head?,¬Continuation x := by
        rw [hcons]
        rintro x ⟨rfl⟩
        exact hlead
      obtain ⟨hinit,hrest⟩ := h.split hhead
      exact hinit.append ((utf8_singleton hc).append (ih [] hrest.of_encodeChar_append))
    by_cases hdot : c = 46
    · subst hdot
      exact hescape (Char.ofNat 0x2024) (by decide) (by decide)
    by_cases hdollar : c = 36
    · subst hdollar
      exact hescape (Char.ofNat 0xA4) (by decide) (by decide)
    · rw [copyReplaceDotsAndDollars_cons,escapeByte,if_neg hdot,if_neg hdollar,← List.append_assoc] at h
      rw [List.append_cons]
      exact ih (init ++ [c]) h

/-- Escaping does not change whether a key is valid. -/
lemma bsonUtf8Validate_escaped_iff (h : 0 ∉ key) :
    bsonUtf8Validate (copyReplaceDotsAndDollars key) = true ↔ Utf8 key := by
  rw [bsonUtf8Validate_iff]
  constructor
  · intro hclean
    exact utf8_of_escaped [] hclean.1
  · intro hutf
    exact copyReplaceDotsAndDollars_clean ⟨hutf,h⟩

theorem safeKey_fits_iff (h : 0 ∉ key) : (∃ safe,safeKey key = .ok safe) ↔ Utf8 key ∨ (key.map spill).sum ≤ 0 := by
  by_cases hutf : Utf8 key
  · exact iff_of_true ⟨_,safeKey_of_clean ⟨hutf,h⟩⟩ (.inl hutf)
  have hescaped : sprintf (4*key.length+1) (copyReplaceDotsAndDollars key) = .ok (copyReplaceDotsAndDollars key) :=
    if_pos (by have := copyReplaceDotsAndDollars_length key; omega)
  have hinvalid : bsonUtf8Validate (copyReplaceDotsAndDollars key) = false := by
    rw [← Bool.not_eq_true,bsonUtf8Validate_escaped_iff h]
    exact hutf
  have hlength := length_convert_escaped h
  rw [safeKey,cstr_of_notMem h]
  simp only [hescaped,hinvalid,bind,Except.bind]
  rw [or_iff_right hutf]
  by_cases hfits : (convertToWin1252 (copyReplaceDotsAndDollars key)).1.length < 4*key.length+1
  · rw [sprintf,if_pos hfits]
    exact iff_of_true ⟨_,rfl⟩ (by omega)
  · rw [sprintf,if_neg hfits]
    refine iff_of_false ?_ (by omega)
    rintro ⟨safe,⟨⟩⟩

theorem safeKey_fits_sample :
    0 ∉ lit "a.b" ++ [255] ∧ ((∃ safe,safeKey (lit "a.b" ++ [255]) = .ok safe) ↔
      Utf8 (lit "a.b" ++ [255]) ∨ ((lit "a.b" ++ [255]).map spill).sum ≤ 0) :=
  ⟨by decide,safeKey_fits_iff (by decide)⟩

/-- A key of three bytes has 13 bytes, but its conversion is 16 bytes long. -/
theorem safeKey_dots_overflow : 0 ∉ lit ".." ++ [255] ∧ safeKey (lit ".." ++ [255]) = .error .bufferOverflow := by
  refine ⟨by decide,?_⟩
  simp only [safeKey,convertToWin1252,win1252Byte_eq]
  decide +kernel

end Logjam.Importer
