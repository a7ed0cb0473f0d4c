import Logjam.Basic.Decimal
import Logjam.Importer.Increments
import Logjam.Library.Ensures
import Logjam.Library.Utf8

/-! Requests are stored as BSON documents. Keys are escaped, since dots and dollar signs have a meaning in
mongo, long strings are truncated, and what is not UTF-8 is taken for Windows-1252. Documents and the
stack are as large as they have to be. -/
namespace Logjam.Importer
open Logjam.Library

inductive Bson
  | null
  | bool (b : Bool)
  | int64 (n : ℤ)
  | double (x : ℚ)
  | utf8 (s : Bytes)
  | document (members : List (Bytes × Bson))
  | array (members : List (Bytes × Bson))

abbrev BsonDocument := List (Bytes × Bson)

/-! Texts. -/

/-- The characters of the bytes from 128 on. -/
def win1252ToUtf8 : List Char :=
  String.toList <|
    "\u20AC\uFFFD\u201A\u0192\u201E\u2026\u2020\u2021\u02C6\u2030\u0160\u2039\u0152\uFFFD\u017D\uFFFD" ++
    "\uFFFD\u2018\u2019\u201C\u201D\u2022\u2013\u2014\u02DC\u2122\u0161\u203A\u0153\uFFFD\u017E\u0178" ++
    "\u00A0\u00A1\u00A2\u00A3\u00A4\u00A5\u00A6\u00A7\u00A8\u00A9\u00AA\u00AB\u00AC\u00AD\u00AE\u00AF" ++
    "\u00B0\u00B1\u00B2\u00B3\u00B4\u00B5\u00B6\u00B7\u00B8\u00B9\u00BA\u00BB\u00BC\u00BD\u00BE\u00BF" ++
    "\u00C0\u00C1\u00C2\u00C3\u00C4\u00C5\u00C6\u00C7\u00C8\u00C9\u00CA\u00CB\u00CC\u00CD\u00CE\u00CF" ++
    "\u00D0\u00D1\u00D2\u00D3\u00D4\u00D5\u00D6\u00D7\u00D8\u00D9\u00DA\u00DB\u00DC\u00DD\u00DE\u00DF" ++
    "\u00E0\u00E1\u00E2\u00E3\u00E4\u00E5\u00E6\u00E7\u00E8\u00E9\u00EA\u00EB\u00EC\u00ED\u00EE\u00EF" ++
    "\u00F0\u00F1\u00F2\u00F3\u00F4\u00F5\u00F6\u00F7\u00F8\u00F9\u00FA\u00FB\u00FC\u00FD\u00FE\u00FF"

/-- What convert_to_win1252 writes for one byte. -/
def win1252Byte (c : UInt8) : Bytes :=
  if c &&& 0x80 = 0 then
    if c ≠ 0 then [c] else lit "\\u0000"
  else String.utf8EncodeChar (win1252ToUtf8.getD (c &&& 0x7F).toNat default)

/-- The text before the terminator, and the value that is returned for its length. -/
def convertToWin1252 (str : Bytes) : Bytes × ℤ :=
  let utf8 := str.flatMap win1252Byte
  (utf8,(utf8.length : ℤ)-1)

/-- bson_utf8_validate as libbson documents it: UTF-8, and here without embedded NUL characters. -/
def bsonUtf8Validate (s : Bytes) : Bool := s.toByteArray.validateUTF8 && !s.contains 0

/-- Texts are passed to the BSON library with a length; it looks for the terminator if it is negative. -/
def bsonText (text : Bytes) (len : ℤ) : Bytes := if len < 0 then cstr text else text.take len.toNat

/-- The position of the last ASCII character before an offset, or the start. -/
def asciiBefore (buf : Bytes) : ℕ → ℕ
  | 0 => 0
  | n+1 => if buf.getD (n+1) 0 &&& 0x80 ≠ 0 then asciiBefore buf n else n+1

/-- The offset is negative where the pointers are subtracted the wrong way round. -/
def findUtf8Offset (buf : Bytes) (n : ℕ) : Except Fault ℤ :=
  if n ≤ 3 then .error .assertFailed
  else
    let b (i : ℕ) := buf.getD (n-3+i) 0
    if b 2 &&& 0x80 ≠ 0 then
      if b 2 &&& 0x40 ≠ 0 then .ok (n-1)
      else if b 1 &&& 0xE0 = 0xE0 then .ok (n-2)
      else if b 0 &&& 0xF0 = 0xF0 then .ok (n-3)
      else .ok (-asciiBefore buf (n-3))
    else .ok n

def maxStringValueSize : ℕ := 10000

/-- Neither malloc nor memcpy can deal with a negative length. -/
def limitJsonStringValueLength (str : Bytes) : Except Fault Bytes :=
  if str.length ≤ maxStringValueSize+16 then .ok str
  else do
    let n ← findUtf8Offset str maxStringValueSize
    if n < 0 then .error .outOfBounds else .ok (str.take n.toNat ++ lit " ...[TRUNCATED]")

def bsonAppendWin1252 (b : BsonDocument) (key val : Bytes) : BsonDocument :=
  let (utf8,newLen) := convertToWin1252 val
  b ++ [(key,.utf8 (bsonText utf8 newLen))]

/-! The converter. -/

/-- The buffer for the key has four bytes for every byte of the key. -/
def safeKey (key : Bytes) : Except Fault Bytes := do
  let key := cstr key
  let size := 4*key.length+1
  let safe ← sprintf size (copyReplaceDotsAndDollars key)
  if bsonUtf8Validate safe then return safe
  else
    let (tmp,len) := convertToWin1252 safe
    return bsonText (← sprintf size tmp) len

mutual

def jsonKeyToBsonKey (b : BsonDocument) (key : Bytes) (val : Json) : Except Fault BsonDocument := do
  let safe ← safeKey key
  match val with
  | .bool x => return b ++ [(safe,.bool x)]
  | .double x => return b ++ [(safe,.double x)]
  | .int n => return b ++ [(safe,.int64 n)]
  | .obj members => return b ++ [(safe,.document (← jsonObjectToBson [] members))]
  | .arr xs => return b ++ [(safe,.array (← jsonArrayToBson [] 0 xs))]
  | .str s =>
    let str ← limitJsonStringValueLength s
    return if bsonUtf8Validate str then b ++ [(safe,.utf8 str)] else bsonAppendWin1252 b safe str
  | .null => return b ++ [(safe,.null)]

/-- The loop over the elements of an array. -/
def jsonArrayToBson (sub : BsonDocument) (pos : ℕ) (xs : List Json) : Except Fault BsonDocument :=
  match xs with
  | [] => .ok sub
  | x::xs => do
    let sub ← jsonKeyToBsonKey sub (decimal pos) x
    jsonArrayToBson sub (pos+1) xs

def jsonObjectToBson (b : BsonDocument) (members : List (Bytes × Json)) : Except Fault BsonDocument :=
  match members with
  | [] => .ok b
  | (key,val)::members => do
    let b ← jsonKeyToBsonKey b key val
    jsonObjectToBson b members

end

/-! The tree of a JSON value. -/

mutual

def asBson : Json → Bson
  | .null => .null
  | .bool b => .bool b
  | .int n => .int64 n
  | .double x => .double x
  | .str s => .utf8 s
  | .arr xs => .array (elementsAsBson 0 xs)
  | .obj members => .document (membersAsBson members)

/-- The keys of the elements are their positions. -/
def elementsAsBson (pos : ℕ) : List Json → BsonDocument
  | [] => []
  | x::xs => (decimal pos,asBson x)::elementsAsBson (pos+1) xs

def membersAsBson : List (Bytes × Json) → BsonDocument
  | [] => []
  | (key,val)::members => (copyReplaceDotsAndDollars key,asBson val)::membersAsBson members

end

def CleanText (s : Bytes) : Prop := Utf8 s ∧ 0 ∉ s

mutual

/-- All keys and strings are UTF-8 without NUL bytes, and no string is too long. -/
def Clean : Json → Prop
  | .str s => CleanText s ∧ s.length ≤ maxStringValueSize
  | .arr xs => CleanElements xs
  | .obj members => CleanMembers members
  | _ => True

def CleanElements : List Json → Prop
  | [] => True
  | x::xs => Clean x ∧ CleanElements xs

def CleanMembers : List (Bytes × Json) → Prop
  | [] => True
  | (key,val)::members => CleanText key ∧ Clean val ∧ CleanMembers members

end

mutual

/-- No key of the value contains a dot or a dollar sign. -/
def PlainKeys : Bson → Prop
  | .document members => PlainMembers members
  | .array members => PlainMembers members
  | _ => True

def PlainMembers : List (Bytes × Bson) → Prop
  | [] => True
  | (key,val)::members => (46 ∉ key ∧ 36 ∉ key) ∧ PlainKeys val ∧ PlainMembers members

end

/-! Keys. -/

lemma bsonUtf8Validate_iff {s : Bytes} : bsonUtf8Validate s = true ↔ CleanText s := by
  rw [bsonUtf8Validate,Bool.and_eq_true,validateUTF8_iff,CleanText]
  simp

instance : DecidablePred CleanText := fun _ => decidable_of_iff _ bsonUtf8Validate_iff

lemma copyReplaceDotsAndDollars_clean {key : Bytes} (h : CleanText key) : CleanText (copyReplaceDotsAndDollars key) := by
  constructor
  · refine h.1.flatMap (fun b hb => ?_) fun b hb => ?_
    · split_ifs
      · exact ⟨[Char.ofNat 0x2024],by decide⟩
      · exact ⟨[Char.ofNat 0xA4],by decide⟩
      · exact utf8_singleton hb
    · have hdot : b ≠ 46 := by rintro rfl; exact absurd hb (by decide)
      have hdollar : b ≠ 36 := by rintro rfl; exact absurd hb (by decide)
      rw [if_neg hdot,if_neg hdollar]
  · intro hmem
    obtain ⟨c,hc,hmem⟩ := List.mem_flatMap.mp hmem
    split_ifs at hmem
    · exact absurd hmem (by decide)
    · exact absurd hmem (by decide)
    · exact h.2 (List.mem_singleton.mp hmem ▸ hc)

lemma copyReplaceDotsAndDollars_plain (key : Bytes) :
    46 ∉ copyReplaceDotsAndDollars key ∧ 36 ∉ copyReplaceDotsAndDollars key := by
  constructor <;> intro hmem <;> obtain ⟨c,-,hmem⟩ := List.mem_flatMap.mp hmem <;> split_ifs at hmem with hdot hdollar
  · exact absurd hmem (by decide)
  · exact absurd hmem (by decide)
  · exact hdot (List.mem_singleton.mp hmem).symm
  · exact absurd hmem (by decide)
  · exact absurd hmem (by decide)
  · exact hdollar (List.mem_singleton.mp hmem).symm

lemma copyReplaceDotsAndDollars_length (key : Bytes) : (copyReplaceDotsAndDollars key).length ≤ 3*key.length := by
  induction key with
  | nil => rfl
  | cons c key ih =>
    have hbyte : (if c = 46 then [226,128,164] else if c = 36 then [194,164] else [c] : Bytes).length ≤ 3 := by
      split_ifs <;> simp
    rw [copyReplaceDotsAndDollars] at ih ⊢
    rw [List.flatMap_cons,List.length_append,List.length_cons]
    omega

/-- The escaped key fits, and is UTF-8 if the key is. -/
lemma safeKey_of_clean {key : Bytes} (h : CleanText key) : safeKey key = .ok (copyReplaceDotsAndDollars key) := by
  have hlength := copyReplaceDotsAndDollars_length key
  have hfits : sprintf (4*key.length+1) (copyReplaceDotsAndDollars key) = .ok (copyReplaceDotsAndDollars key) :=
    if_pos (by omega)
  rw [safeKey,cstr_of_notMem h.2]
  simp only [hfits,bind,Except.bind,bsonUtf8Validate_iff.mpr (copyReplaceDotsAndDollars_clean h),if_true]
  rfl

lemma copyReplaceDotsAndDollars_of_plain {key : Bytes} (hdot : 46 ∉ key) (hdollar : 36 ∉ key) :
    copyReplaceDotsAndDollars key = key := by
  rw [copyReplaceDotsAndDollars]
  refine (List.flatMap_congr fun c hc => ?_).trans (List.flatMap_singleton' key)
  have hne : c ≠ 46 := fun h => hdot (h ▸ hc)
  have hne' : c ≠ 36 := fun h => hdollar (h ▸ hc)
  rw [if_neg hne,if_neg hne']

/-- Positions are made of digits. -/
lemma forall_mem_decimal {pos : ℕ} {c : UInt8} (h : c ∈ decimal pos) : 48 ≤ c.toNat ∧ c.toNat ≤ 57 :=
  isDigit_iff.mp (isDigit_of_mem_decimal h)

lemma notMem_decimal (pos : ℕ) {c : UInt8} (h : c.toNat < 48) : c ∉ decimal pos := fun hmem => by
  have hdigit := forall_mem_decimal hmem
  omega

lemma decimal_clean (pos : ℕ) : CleanText (decimal pos) := by
  refine ⟨utf8_of_ascii fun b hb => ?_,notMem_decimal pos (by decide)⟩
  have hdigit := forall_mem_decimal hb
  omega

lemma safeKey_decimal (pos : ℕ) : safeKey (decimal pos) = .ok (decimal pos) := by
  rw [safeKey_of_clean (decimal_clean pos),
    copyReplaceDotsAndDollars_of_plain (notMem_decimal pos (by decide)) (notMem_decimal pos (by decide))]

/-! Documents. -/

lemma limitJsonStringValueLength_of_le {s : Bytes} (h : s.length ≤ maxStringValueSize) :
    limitJsonStringValueLength s = .ok s := if_pos (by omega)

mutual

/-- What is appended for a value under a key that is safe. -/
lemma jsonKeyToBsonKey_eq {b : BsonDocument} {key safe : Bytes} (hkey : safeKey key = .ok safe) :
    ∀ val : Json,Clean val → jsonKeyToBsonKey b key val = .ok (b ++ [(safe,asBson val)])
  | .null,_ => by
    rw [jsonKeyToBsonKey,hkey]
    rfl
  | .bool _,_ => by
    rw [jsonKeyToBsonKey,hkey]
    rfl
  | .int _,_ => by
    rw [jsonKeyToBsonKey,hkey]
    rfl
  | .double _,_ => by
    rw [jsonKeyToBsonKey,hkey]
    rfl
  | .str s,h => by
    rw [jsonKeyToBsonKey,hkey]
    simp only [bind,Except.bind,limitJsonStringValueLength_of_le h.2,bsonUtf8Validate_iff.mpr h.1,if_true]
    rfl
  | .arr xs,h => by
    rw [jsonKeyToBsonKey,hkey]
    simp only [bind,Except.bind,jsonArrayToBson_eq 0 xs h]
    rfl
  | .obj members,h => by
    rw [jsonKeyToBsonKey,hkey]
    simp only [bind,Except.bind,jsonObjectToBson_eq members h]
    rfl

lemma jsonArrayToBson_eq {sub : BsonDocument} (pos : ℕ) :
    ∀ xs : List Json,CleanElements xs → jsonArrayToBson sub pos xs = .ok (sub ++ elementsAsBson pos xs)
  | [],_ => by rw [jsonArrayToBson,elementsAsBson,List.append_nil]
  | x::xs,h => by
    rw [jsonArrayToBson,jsonKeyToBsonKey_eq (safeKey_decimal pos) x h.1]
    simp only [bind,Except.bind]
    rw [jsonArrayToBson_eq (pos+1) xs h.2,elementsAsBson,List.append_assoc]
    rfl

lemma jsonObjectToBson_eq {b : BsonDocument} :
    ∀ members : List (Bytes × Json),CleanMembers members → jsonObjectToBson b members = .ok (b ++ membersAsBson members)
  | [],_ => by rw [jsonObjectToBson,membersAsBson,List.append_nil]
  | (key,val)::members,h => by
    rw [jsonObjectToBson,jsonKeyToBsonKey_eq (safeKey_of_clean h.1) val h.2.1]
    simp only [bind,Except.bind]
    rw [jsonObjectToBson_eq members h.2.2,membersAsBson,List.append_assoc]
    rfl

end

mutual

lemma asBson_plain : ∀ val : Json,PlainKeys (asBson val)
  | .null => trivial
  | .bool _ => trivial
  | .int _ => trivial
  | .double _ => trivial
  | .str _ => trivial
  | .arr xs => elementsAsBson_plain 0 xs
  | .obj members => membersAsBson_plain members

lemma elementsAsBson_plain (pos : ℕ) : ∀ xs : List Json,PlainMembers (elementsAsBson pos xs)
  | [] => trivial
  | x::xs => ⟨⟨notMem_decimal pos (by decide),notMem_decimal pos (by decide)⟩,asBson_plain x,
    elementsAsBson_plain (pos+1) xs⟩

lemma membersAsBson_plain : ∀ members : List (Bytes × Json),PlainMembers (membersAsBson members)
  | [] => trivial
  | (key,val)::members => ⟨copyReplaceDotsAndDollars_plain key,asBson_plain val,membersAsBson_plain members⟩

end

/-- Whatever is in the document already, the members are appended as they are, under their escaped keys. -/
theorem jsonObjectToBson_keeps_tree (b : BsonDocument) {members : List (Bytes × Json)} (h : CleanMembers members) :
    jsonObjectToBson b members = .ok (b ++ membersAsBson members) ∧ PlainMembers (membersAsBson members) :=
  ⟨jsonObjectToBson_eq members h,membersAsBson_plain members⟩

/-- A request with nested members, one of them with a dot and one with a dollar sign in its key. -/
def sampleTree : JObject :=
  [(lit "action",.str (lit "Cart#show")),(lit "host.name",.str [195,188]),
    (lit "headers",.obj [(lit "$set",.arr [.int 1,.null,.obj [(lit "a.b",.bool true)]])])]

theorem sampleTree_kept : CleanMembers sampleTree ∧
    jsonObjectToBson [] sampleTree = .ok ([] ++ membersAsBson sampleTree) ∧ PlainMembers (membersAsBson sampleTree) := by
  have hclean : CleanMembers sampleTree := by
    simp only [sampleTree,CleanMembers,Clean,CleanElements]
    decide +kernel
  exact ⟨hclean,jsonObjectToBson_keeps_tree [] hclean⟩

end Logjam.Importer
