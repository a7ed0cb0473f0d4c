import Mathlib

/-! Byte strings and the C library functions the programs apply to them. A C string is the list
of its bytes before the terminating NUL. -/
namespace Logjam

abbrev Bytes := List UInt8

/-- The ways in which a C function does not return to its caller. -/
inductive Fault
  | nullString
  | notAnArray
  | absentFrame
  | assertFailed
  | bufferOverflow
  | outOfBounds
  | stillRunning
  deriving Repr, DecidableEq

/-- The bytes of an ASCII literal of the source. -/
def lit (s : String) : Bytes := s.toList.map fun c => UInt8.ofNat c.toNat

/-- The C string stored in a byte buffer: everything before the first NUL. -/
def cstr (s : Bytes) : Bytes := s.takeWhile (· != 0)

/-- Offset of the first occurrence of a byte. -/
def strchr (s : Bytes) (c : UInt8) : Option ℕ := s.findIdx? (· == c)

/-- Offset of the first occurrence of a string. -/
def strstr : Bytes → Bytes → Option ℕ
  | [],needle => if needle = [] then some 0 else none
  | c::s,needle => if needle.isPrefixOf (c::s) then some 0 else (strstr s needle).map (·+1)

/-- Offset of the last occurrence of a byte. -/
def rindex (s : Bytes) (c : UInt8) : Option ℕ :=
  (s.reverse.findIdx? (· == c)).map fun i => s.length-1-i

/-- The decimal digits printed by %lu and %zu. -/
def decimal (n : ℕ) : Bytes := (Nat.toDigits 10 n).map fun c => UInt8.ofNat c.toNat

/-- The text printed by %d. -/
def decimalInt : ℤ → Bytes
  | .ofNat n => decimal n
  | .negSucc n => lit "-" ++ decimal (n+1)

/-- Bytes isspace accepts in the C locale. -/
def isSpace (c : UInt8) : Bool := c == 32 || (9 ≤ c && c ≤ 13)

def isDigit (c : UInt8) : Bool := 48 ≤ c && c ≤ 57

/-- The value of the leading decimal digits of a string. -/
def leadingDigits (s : Bytes) : ℕ :=
  (s.takeWhile isDigit).foldl (fun n c => 10*n+(c.toNat-48)) 0

/-- Leading white space, an optional sign, then decimal digits; anything else reads as zero. -/
def atoi (s : Bytes) : ℤ :=
  match s.dropWhile isSpace with
  | 45::t => -(leadingDigits t : ℤ)
  | 43::t => leadingDigits t
  | t => leadingDigits t

/-- What snprintf leaves in a buffer of the given size. -/
def snprintf (size : ℕ) (text : Bytes) : Bytes := text.take (size-1)

/-- What sprintf leaves in a buffer of the given size, if the text and its terminator fit. -/
def sprintf (size : ℕ) (text : Bytes) : Except Fault Bytes :=
  if text.length < size then .ok text else .error .bufferOverflow

/-- The value of an int in a size_t argument. -/
def sizeOfInt (n : ℤ) : ℕ := (n % 2^64).toNat

/-- The value of a size_t in an int argument. -/
def toInt32 (n : ℕ) : ℤ := if n%2^32 < 2^31 then (n%2^32 : ℕ) else (n%2^32 : ℕ)-2^32

lemma toInt32_of_lt {n : ℕ} (h : n < 2^31) : toInt32 n = n := by
  have hmod : n%2^32 = n := Nat.mod_eq_of_lt (by omega)
  rw [toInt32,hmod,if_pos h]

/-- What is left of a result in an int64_t. -/
def toInt64 (n : ℤ) : ℤ := n.bmod (2^64)

lemma toInt64_of_lt {n : ℤ} (hlow : -2^63 ≤ n) (hhigh : n < 2^63) : toInt64 n = n :=
  Int.bmod_eq_of_le_mul_two (by omega) (by omega)

lemma isDigit_iff {c : UInt8} : isDigit c = true ↔ 48 ≤ c.toNat ∧ c.toNat ≤ 57 := by
  rw [isDigit,Bool.and_eq_true,decide_eq_true_eq,decide_eq_true_eq,UInt8.le_iff_toNat_le,UInt8.le_iff_toNat_le]
  rfl

lemma isSpace_iff {c : UInt8} : isSpace c = true ↔ c.toNat = 32 ∨ 9 ≤ c.toNat ∧ c.toNat ≤ 13 := by
  rw [isSpace,Bool.or_eq_true,Bool.and_eq_true,decide_eq_true_eq,decide_eq_true_eq,beq_iff_eq,UInt8.le_iff_toNat_le,
    UInt8.le_iff_toNat_le,← UInt8.toNat_inj]
  rfl

lemma not_isSpace_of_isDigit {c : UInt8} (h : isDigit c = true) : isSpace c = false := by
  rw [isDigit_iff] at h
  rw [← Bool.not_eq_true,isSpace_iff]
  omega

lemma zero_notMem_cstr (s : Bytes) : 0 ∉ cstr s := by
  intro h
  exact absurd (List.mem_takeWhile_imp h) (by decide)

lemma cstr_of_notMem {s : Bytes} (h : 0 ∉ s) : cstr s = s := by
  rw [cstr,List.takeWhile_eq_self_iff]
  intro c hc
  exact bne_iff_ne.mpr fun hzero => h (hzero ▸ hc)

example : (decimal 1439,decimalInt (-60),atoi (lit " 07x")) = (lit "1439",lit "-60",7) := by decide

end Logjam
