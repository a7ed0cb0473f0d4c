import Logjam.Library.Separated
import Logjam.Basic.Json
import Logjam.Basic.Decimal

/-! The text json-c prints for a value under JSON_C_TO_STRING_PLAIN, and where a word without
JSON punctuation can occur in it. -/
namespace Logjam
open Library

def hexDigit (n : ℕ) : UInt8 := if n < 10 then UInt8.ofNat (48+n) else UInt8.ofNat (87+n)

/-- One byte of json_escape_str. -/
def jsonEscapeByte (c : UInt8) : Bytes :=
  if c = 8 then lit "\\b"
  else if c = 10 then lit "\\n"
  else if c = 13 then lit "\\r"
  else if c = 9 then lit "\\t"
  else if c = 12 then lit "\\f"
  else if c = 34 then lit "\\\""
  else if c = 92 then lit "\\\\"
  else if c = 47 then lit "\\/"
  else if c < 32 then lit "\\u00" ++ [hexDigit (c.toNat/16),hexDigit (c.toNat%16)]
  else [c]

def jsonEscapeStr (s : Bytes) : Bytes := s.flatMap jsonEscapeByte

def quoted (s : Bytes) : Bytes := 34::(jsonEscapeStr s ++ [34])

/-- How json-c prints a double. A double that was read keeps the digits it was read from. -/
structure NumberText where
  text : ℚ → Bytes
  numeral : ∀ x, ∀ c ∈ text x, c ∈ lit "+-.0123456789eE"

mutual

def jsonText (number : NumberText) : Json → Bytes
  | .null => lit "null"
  | .bool b => if b then lit "true" else lit "false"
  | .int n => decimalInt n
  | .double x => number.text x
  | .str s => quoted s
  | .arr xs => 91::(elementsText number false xs ++ [93])
  | .obj members => 123::(membersText number false members ++ [125])

/-- The flag tells whether something has been printed before. -/
def elementsText (number : NumberText) (hadChildren : Bool) : List Json → Bytes
  | [] => []
  | x::xs => (if hadChildren then [44] else []) ++ jsonText number x ++ elementsText number true xs

/-- Member names are C strings. -/
def membersText (number : NumberText) (hadChildren : Bool) : List (Bytes × Json) → Bytes
  | [] => []
  | (k,v)::members => (if hadChildren then [44] else []) ++
      (quoted (cstr k) ++ 58::jsonText number v) ++ membersText number true members

end

mutual

/-- Some string or member name of the value contains the word once it is escaped. -/
def Mentions (word : Bytes) : Json → Prop
  | .str s => word <:+: jsonEscapeStr s
  | .arr xs => MentionsElement word xs
  | .obj members => MentionsMember word members
  | _ => False

def MentionsElement (word : Bytes) : List Json → Prop
  | [] => False
  | x::xs => Mentions word x ∨ MentionsElement word xs

def MentionsMember (word : Bytes) : List (Bytes × Json) → Prop
  | [] => False
  | (k,v)::members => word <:+: jsonEscapeStr (cstr k) ∨ Mentions word v ∨ MentionsMember word members

end

/-- The bytes json-c puts around and between the values. -/
def punctuation : Bytes := lit "\"[]\x7b\x7d:,"

example (number : NumberText) : jsonText number (.obj [(lit "a/b",.arr [.int 1,.null]),(lit "c",.str [9])]) =
    lit "\x7b\"a\\/b\":[1,null],\"c\":\"\\t\"\x7d" := by rfl

lemma decimalInt_numeral (n : ℤ) : ∀ c ∈ decimalInt n, c = 45 ∨ isDigit c = true := by
  cases n with
  | ofNat n => exact fun c hc => .inr (isDigit_of_mem_decimal hc)
  | negSucc n =>
    intro c hc
    rcases List.mem_cons.mp hc with rfl | hc
    · exact .inl rfl
    · exact .inr (isDigit_of_mem_decimal hc)

section Occurrences

variable {word : Bytes} (hword : ∀ c ∈ punctuation, c ∉ word)
include hword

/-- Brackets and quotes around a text do not matter. -/
lemma infix_bracketed_iff {l r : UInt8} (hl : l ∈ punctuation) (hr : r ∈ punctuation) (s : Bytes) :
    word <:+: l::(s ++ [r]) ↔ word <:+: s := by
  rw [infix_cons_iff_of_notMem (hword l hl),infix_append_cons_iff (hword r hr),infix_or_nil_iff]

/-- An item of a list is followed by nothing or by a comma. -/
lemma infix_item_iff (hadChildren : Bool) (item : Bytes) {rest : Bytes} (hrest : ∀ c ∈ rest.head?, c = 44) :
    word <:+: (if hadChildren then [44] else []) ++ item ++ rest ↔ word <:+: item ∨ word <:+: rest := by
  have hcomma : 44 ∉ word := hword 44 (by decide)
  have hitem : word <:+: item ++ rest ↔ word <:+: item ∨ word <:+: rest := by
    cases rest with
    | nil => rw [List.append_nil,infix_or_nil_iff]
    | cons c rest =>
      obtain rfl : c = 44 := hrest c rfl
      rw [infix_append_cons_iff hcomma,infix_cons_iff_of_notMem hcomma]
  cases hadChildren with
  | false => exact hitem
  | true => exact (infix_cons_iff_of_notMem hcomma _).trans hitem

end Occurrences

lemma head?_elementsText (number : NumberText) (xs : List Json) :
    ∀ c ∈ (elementsText number true xs).head?, c = 44 := by
  cases xs with
  | nil => simp [elementsText]
  | cons x xs => simp [elementsText]

lemma head?_membersText (number : NumberText) (members : List (Bytes × Json)) :
    ∀ c ∈ (membersText number true members).head?, c = 44 := by
  cases members with
  | nil => simp [membersText]
  | cons m members => simp [membersText]

section Mentions

variable {word : Bytes} (hword : ∀ c ∈ punctuation, c ∉ word) (hunder : 95 ∈ word) (number : NumberText)
include hword hunder

mutual

/-- A word with an underscore is found in the text of a value just if a string or a member name
of it contains the word. -/
theorem infix_jsonText_iff : ∀ v : Json, word <:+: jsonText number v ↔ Mentions word v
  | .null => iff_of_false (not_infix_of_notMem hunder (by decide : 95 ∉ lit "null")) id
  | .bool true => iff_of_false (not_infix_of_notMem hunder (by decide : 95 ∉ lit "true")) id
  | .bool false => iff_of_false (not_infix_of_notMem hunder (by decide : 95 ∉ lit "false")) id
  | .int n => by
    refine iff_of_false (not_infix_of_notMem hunder fun h => ?_) id
    rcases decimalInt_numeral n 95 h with h | h
    · exact absurd h (by decide)
    · exact absurd h (by decide)
  | .double x => iff_of_false (not_infix_of_notMem hunder fun h => absurd (number.numeral x 95 h) (by decide)) id
  | .str s => infix_bracketed_iff hword (by decide) (by decide) (jsonEscapeStr s)
  | .arr xs => (infix_bracketed_iff hword (by decide) (by decide) _).trans (infix_elementsText_iff false xs)
  | .obj members => (infix_bracketed_iff hword (by decide) (by decide) _).trans (infix_membersText_iff false members)

theorem infix_elementsText_iff (hadChildren : Bool) :
    ∀ xs : List Json, word <:+: elementsText number hadChildren xs ↔ MentionsElement word xs
  | [] => iff_of_false (not_infix_of_notMem hunder List.not_mem_nil) id
  | x::xs => (infix_item_iff hword hadChildren _ (head?_elementsText number xs)).trans
      (or_congr (infix_jsonText_iff x) (infix_elementsText_iff true xs))

theorem infix_membersText_iff (hadChildren : Bool) :
    ∀ members : List (Bytes × Json), word <:+: membersText number hadChildren members ↔ MentionsMember word members
  | [] => iff_of_false (not_infix_of_notMem hunder List.not_mem_nil) id
  | (k,v)::members => by
    have hname := infix_bracketed_iff hword (l := 34) (r := 34) (by decide) (by decide) (jsonEscapeStr (cstr k))
    have hmember := (infix_append_cons_iff (hword 58 (by decide)) (quoted (cstr k)) (jsonText number v)).trans
      (or_congr hname (infix_jsonText_iff v))
    have hrest := (infix_item_iff hword hadChildren (quoted (cstr k) ++ 58::jsonText number v)
      (head?_membersText number members)).trans (or_congr hmember (infix_membersText_iff true members))
    exact hrest.trans or_assoc

end

end Mentions

/-! The text is a C string: bytes below 32 are escaped. -/

lemma hexDigit_ne_zero {n : ℕ} (h : n < 16) : hexDigit n ≠ 0 := by
  interval_cases n <;> decide

lemma notMem_ite {p : Prop} [Decidable p] {b : UInt8} {x y : Bytes} (hx : b ∉ x) (hy : b ∉ y) : b ∉ if p then x else y := by
  split_ifs
  · exact hx
  · exact hy

lemma zero_notMem_jsonEscapeByte (c : UInt8) : 0 ∉ jsonEscapeByte c := by
  unfold jsonEscapeByte
  iterate 8
    refine notMem_ite (by decide) ?_
  split_ifs with hcontrol
  · have hlt : c.toNat < 256 := c.toNat_lt
    rintro hmem
    rcases List.mem_append.mp hmem with hmem | hmem
    · exact absurd hmem (by decide)
    · rcases List.mem_cons.mp hmem with h | hmem
      · exact hexDigit_ne_zero (by omega) h.symm
      · exact hexDigit_ne_zero (by omega) (List.mem_singleton.mp hmem).symm
  · intro hmem
    exact hcontrol (List.mem_singleton.mp hmem ▸ by decide)

lemma zero_notMem_quoted (s : Bytes) : 0 ∉ quoted s := by
  intro hmem
  rcases List.mem_cons.mp hmem with h | hmem
  · exact absurd h (by decide)
  · rcases List.mem_append.mp hmem with hmem | hmem
    · obtain ⟨c,-,hc⟩ := List.mem_flatMap.mp hmem
      exact zero_notMem_jsonEscapeByte c hc
    · exact absurd hmem (by decide)

lemma zero_notMem_bracketed {l r : UInt8} (hl : l ≠ 0) (hr : r ≠ 0) {s : Bytes} (hs : 0 ∉ s) :
    0 ∉ l::(s ++ [r]) := by
  simp [hl.symm,hr.symm,hs]

lemma zero_notMem_item (hadChildren : Bool) {item rest : Bytes} (hitem : 0 ∉ item) (hrest : 0 ∉ rest) :
    0 ∉ (if hadChildren then [44] else []) ++ item ++ rest := by
  cases hadChildren <;> simp [hitem,hrest]

mutual

theorem zero_notMem_jsonText (number : NumberText) : ∀ v : Json, 0 ∉ jsonText number v
  | .null => (by decide : 0 ∉ lit "null")
  | .bool true => (by decide : 0 ∉ lit "true")
  | .bool false => (by decide : 0 ∉ lit "false")
  | .int n => by
    intro h
    rcases decimalInt_numeral n 0 h with h | h
    · exact absurd h (by decide)
    · exact absurd h (by decide)
  | .double x => fun h => absurd (number.numeral x 0 h) (by decide)
  | .str s => zero_notMem_quoted s
  | .arr xs => zero_notMem_bracketed (by decide) (by decide) (zero_notMem_elementsText number false xs)
  | .obj members => zero_notMem_bracketed (by decide) (by decide) (zero_notMem_membersText number false members)

theorem zero_notMem_elementsText (number : NumberText) (hadChildren : Bool) :
    ∀ xs : List Json, 0 ∉ elementsText number hadChildren xs
  | [] => List.not_mem_nil
  | x::xs => zero_notMem_item hadChildren (zero_notMem_jsonText number x)
      (zero_notMem_elementsText number true xs)

theorem zero_notMem_membersText (number : NumberText) (hadChildren : Bool) :
    ∀ members : List (Bytes × Json), 0 ∉ membersText number hadChildren members
  | [] => List.not_mem_nil
  | (k,v)::members => by
    refine zero_notMem_item hadChildren ?_ (zero_notMem_membersText number true members)
    have hv := zero_notMem_jsonText number v
    simp [zero_notMem_quoted,hv]

end

end Logjam
