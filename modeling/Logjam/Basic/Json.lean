import Logjam.Basic.Bytes

/-! JSON values as the json-c library presents them to its callers. JSON null is a NULL pointer:
a member holding null is found by a lookup, and its string is NULL. Numbers are exact. -/
namespace Logjam

inductive Json
  | null
  | bool (b : Bool)
  | int (n : ℤ)
  | double (x : ℚ)
  | str (s : Bytes)
  | arr (xs : List Json)
  | obj (members : List (Bytes × Json))

/-- The members of a JSON object in insertion order. -/
abbrev JObject := List (Bytes × Json)

/-- The number conversions and the serialiser of json-c. -/
structure JsonLib where
  strtod : Bytes → ℚ
  parseInt64 : Bytes → ℤ
  truncate : ℚ → ℤ
  toJsonString : Json → Bytes

/-- A library that finds no number in a string, for examples. -/
def JsonLib.blank : JsonLib := ⟨fun _ => 0,fun _ => 0,fun _ => 0,fun _ => []⟩

def JObject.lookup (members : JObject) (key : Bytes) : Option Json :=
  (members.find? fun m => m.1 == key).map (·.2)

/-- json_object_object_get_ex: only objects have members. -/
def jsonObjectObjectGetEx : Json → Bytes → Option Json
  | .obj members,key => members.lookup key
  | _,_ => none

/-- json_object_object_add: an existing member keeps its place and gets the new value. -/
def JObject.add : JObject → Bytes → Json → JObject
  | [],key,v => [(key,v)]
  | m::ms,key,v => if m.1 = key then (key,v)::ms else m::JObject.add ms key v

/-- json_object_object_del. -/
def JObject.del (members : JObject) (key : Bytes) : JObject := members.filter fun m => m.1 != key

lemma JObject.lookup_cons (m : Bytes × Json) (members : JObject) (k : Bytes) :
    JObject.lookup (m::members) k = if m.1 = k then some m.2 else JObject.lookup members k := by
  unfold JObject.lookup
  by_cases h : m.1 = k
  · rw [List.find?_cons_of_pos (by simpa using h),if_pos h]
    rfl
  · rw [List.find?_cons_of_neg (by simpa using h),if_neg h]

/-- The members of a nested object are found the same way. -/
lemma JObject.lookup_eq (members : JObject) (key : Bytes) : List.lookup key members = members.lookup key := by
  induction members with
  | nil => rfl
  | cons m members ih =>
    rw [JObject.lookup_cons,List.lookup_cons,ih]
    by_cases h : m.1 = key
    · rw [if_pos h,beq_iff_eq.mpr h.symm]
    · rw [if_neg h,beq_eq_false_iff_ne.mpr (Ne.symm h)]

lemma JObject.lookup_add (members : JObject) (key k : Bytes) (v : Json) :
    (members.add key v).lookup k = if key = k then some v else members.lookup k := by
  induction members with
  | nil => exact lookup_cons (key,v) [] k
  | cons m members ih =>
    unfold JObject.add
    by_cases hm : m.1 = key
    · rw [if_pos hm,lookup_cons,lookup_cons,hm]
      by_cases hk : key = k
      · rw [if_pos hk,if_pos hk]
      · rw [if_neg hk,if_neg hk,if_neg hk]
    · rw [if_neg hm,lookup_cons,lookup_cons,ih]
      by_cases hk : key = k
      · rw [if_neg (hk ▸ hm),if_pos hk,if_pos hk]
      · rw [if_neg hk,if_neg hk]

lemma JObject.lookup_del {key k : Bytes} (h : key ≠ k) (members : JObject) :
    (members.del key).lookup k = members.lookup k := by
  induction members with
  | nil => rfl
  | cons m members ih =>
    unfold JObject.del at ih ⊢
    by_cases hm : m.1 = key
    · rw [List.filter_cons_of_neg (by simpa using hm),ih,lookup_cons,if_neg (hm ▸ h)]
    · rw [List.filter_cons_of_pos (by simpa using hm),lookup_cons,lookup_cons,ih]

def jsonObjectGetDouble (lib : JsonLib) : Json → ℚ
  | .double x => x
  | .int n => n
  | .bool b => if b then 1 else 0
  | .str s => lib.strtod (cstr s)
  | _ => 0

def jsonObjectGetInt64 (lib : JsonLib) : Json → ℤ
  | .int n => n
  | .double x => lib.truncate x
  | .bool b => if b then 1 else 0
  | .str s => lib.parseInt64 (cstr s)
  | _ => 0

/-- json_object_get_int saturates at the bounds of a 32 bit int. -/
def jsonObjectGetInt (lib : JsonLib) (v : Json) : ℤ :=
  max (-2^31) (min (2^31-1) (jsonObjectGetInt64 lib v))

def jsonObjectGetBoolean : Json → Bool
  | .bool b => b
  | .int n => n != 0
  | .double x => x != 0
  | .str s => !s.isEmpty
  | _ => false

/-- json_object_get_string: NULL for null, and the JSON text of a value that is not a string. -/
def jsonObjectGetString (lib : JsonLib) : Json → Option Bytes
  | .null => none
  | .str s => some (cstr s)
  | v => some (cstr (lib.toJsonString v))

/-- A string argument that the callee dereferences. -/
def jsonString (lib : JsonLib) (v : Json) : Except Fault Bytes :=
  match jsonObjectGetString lib v with
  | some s => .ok s
  | none => .error .nullString

/-- The elements of a value passed to json_object_array_length, which asserts an array. -/
def jsonArray : Json → Except Fault (List Json)
  | .arr xs => .ok xs
  | _ => .error .notAnArray

end Logjam
