import Logjam.Basic.Decimal

/-! Calendar times as strptime reads them. White space in front of a number is skipped, and a number ends where
another digit would leave its range. Texts may go on after the time. -/
namespace Logjam

/-- A broken-down time, with months and years as they are written. -/
structure Tm where
  year : ℕ
  month : ℕ
  day : ℕ
  hour : ℕ
  min : ℕ
  sec : ℕ
  deriving DecidableEq

inductive Conversion
  | year
  | month
  | day
  | hour
  | minute
  | second

namespace Conversion

def low : Conversion → ℕ
  | month | day => 1
  | _ => 0

def high : Conversion → ℕ
  | year => 9999
  | month => 12
  | day => 31
  | hour => 23
  | minute => 59
  | second => 61

/-- The number of digits that are read at most. -/
def width : Conversion → ℕ
  | year => 4
  | _ => 2

def ofByte (c : UInt8) : Option Conversion :=
  if c = 89 then some year
  else if c = 109 then some month
  else if c = 100 then some day
  else if c = 72 then some hour
  else if c = 77 then some minute
  else if c = 83 then some second
  else none

end Conversion

def Tm.set (tm : Tm) : Conversion → ℕ → Tm
  | .year,val => { tm with year := val }
  | .month,val => { tm with month := val }
  | .day,val => { tm with day := val }
  | .hour,val => { tm with hour := val }
  | .minute,val => { tm with min := val }
  | .second,val => { tm with sec := val }

inductive Directive
  | conversion (c : Conversion)
  | char (c : UInt8)
  | space

/-- The directives of a format, if it has no other conversions. -/
def directives : Bytes → Option (List Directive)
  | [] => some []
  | 37::c::fmt => do
    let conversion ← Conversion.ofByte c
    return .conversion conversion::(← directives fmt)
  | c::fmt => do
    let fmt ← directives fmt
    return (if isSpace c then .space else .char c)::fmt

/-- The loop over the digits after the first one. -/
def moreDigits (high : ℕ) : ℕ → ℕ → Bytes → ℕ × Bytes
  | n+1,val,c::rp => if 10*val ≤ high ∧ isDigit c then moreDigits high n (10*val+(c.toNat-48)) rp else (val,c::rp)
  | _,val,rp => (val,rp)

/-- The number at the start of a text, and what follows it. -/
def getNumber (low high width : ℕ) (rp : Bytes) : Option (ℕ × Bytes) :=
  match rp.dropWhile isSpace with
  | [] => none
  | c::rp =>
    if isDigit c then
      let (val,rp) := moreDigits high (width-1) (c.toNat-48) rp
      if low ≤ val ∧ val ≤ high then some (val,rp) else none
    else none

def scan : List Directive → Bytes → Tm → Option Tm
  | [],_,tm => some tm
  | .space::fmt,rp,tm => scan fmt (rp.dropWhile isSpace) tm
  | .char c::fmt,rp,tm =>
    match rp with
    | [] => none
    | x::rp => if x = c then scan fmt rp tm else none
  | .conversion c::fmt,rp,tm => do
    let (val,rp) ← getNumber c.low c.high c.width rp
    scan fmt rp (tm.set c val)

def strptime (text fmt : Bytes) (tm : Tm) : Option Tm := do scan (← directives fmt) text tm

example : strptime (lit " 2026-1-31  9:15:30.5") (lit "%Y-%m-%d %H:%M:%S") ⟨0,0,0,0,0,0⟩ = some ⟨2026,1,31,9,15,30⟩ := by
  decide +kernel

/-! What is accepted for a number. -/

def digitsValue (digits : Bytes) : ℕ := digits.foldl (fun n c => 10*n+(c.toNat-48)) 0

lemma digitByte_of_isDigit {c : UInt8} (h : isDigit c = true) : digitByte (c.toNat-48) = c := by
  obtain ⟨hlow,-⟩ := isDigit_iff.mp h
  rw [digitByte,Nat.add_sub_of_le hlow,UInt8.ofNat_toNat]

/-- A number with leading zeros. -/
def padded : ℕ → ℕ → Bytes
  | 0,_ => []
  | k+1,n => padded k (n/10) ++ [digitByte (n%10)]

lemma padded_digitsValue {digits : Bytes} (h : ∀ b ∈ digits,isDigit b) : padded digits.length (digitsValue digits) = digits := by
  induction digits using List.reverseRecOn with
  | nil => rfl
  | append_singleton digits c ih =>
    rw [List.forall_mem_append,List.forall_mem_singleton] at h
    obtain ⟨hlow,hhigh⟩ := isDigit_iff.mp h.2
    have hvalue : digitsValue (digits ++ [c]) = 10*digitsValue digits+(c.toNat-48) := by
      rw [digitsValue,List.foldl_append]
      rfl
    have hdiv : (10*digitsValue digits+(c.toNat-48))/10 = digitsValue digits := by omega
    have hmod : (10*digitsValue digits+(c.toNat-48))%10 = c.toNat-48 := by omega
    rw [hvalue,List.length_append,List.length_singleton,padded,hdiv,hmod,ih h.1,digitByte_of_isDigit h.2]

lemma digitsValue_padded {k n : ℕ} (h : n < 10^k) : digitsValue (padded k n) = n := by
  induction k generalizing n with
  | zero =>
    rw [pow_zero,Nat.lt_one_iff] at h
    rw [h]
    rfl
  | succ k ih =>
    have hdiv : n/10 < 10^k := Nat.div_lt_of_lt_mul (by rwa [pow_succ,mul_comm] at h)
    have hmod : n%10 < 10 := Nat.mod_lt n (by decide)
    have hvalue : digitsValue (padded k (n/10) ++ [digitByte (n%10)]) =
        10*digitsValue (padded k (n/10))+((digitByte (n%10)).toNat-48) := by
      rw [digitsValue,List.foldl_append]
      rfl
    rw [padded,hvalue,ih hdiv,toNat_digitByte hmod,Nat.add_sub_cancel_left,Nat.div_add_mod]

lemma length_padded (k n : ℕ) : (padded k n).length = k := by
  induction k generalizing n with
  | zero => rfl
  | succ k ih => rw [padded,List.length_append,ih,List.length_singleton]

lemma isDigit_of_mem_padded {k n : ℕ} {c : UInt8} (h : c ∈ padded k n) : isDigit c = true := by
  induction k generalizing n with
  | zero => cases h
  | succ k ih =>
    rcases List.mem_append.mp h with h | h
    · exact ih h
    · rw [List.mem_singleton.mp h]
      exact isDigit_digitByte (Nat.mod_lt n (by decide))

def Tm.dateText (tm : Tm) : Bytes := padded 4 tm.year ++ 45::(padded 2 tm.month ++ 45::padded 2 tm.day)

lemma Tm.length_dateText (tm : Tm) : tm.dateText.length = 10 := by
  simp only [Tm.dateText,List.length_append,List.length_cons,length_padded]

/-- Where digits end can be seen from what follows. -/
lemma digits_append_inj {digits digits' rest rest' : Bytes} {x : UInt8} (hx : isDigit x = false)
    (hdigits : ∀ b ∈ digits,isDigit b) (hdigits' : ∀ b ∈ digits',isDigit b)
    (h : digits ++ x::rest = digits' ++ x::rest') : digits = digits' ∧ rest = rest' := by
  have hread {ds : Bytes} (r : Bytes) (hds : ∀ b ∈ ds,isDigit b) : (ds ++ x::r).takeWhile isDigit = ds := by
    rw [List.takeWhile_append_of_pos hds,List.takeWhile_cons_of_neg (by simpa using hx),List.append_nil]
  have hsame := congrArg (List.takeWhile isDigit) h
  rw [hread rest hdigits,hread rest' hdigits'] at hsame
  subst hsame
  exact ⟨rfl,(List.cons.inj (List.append_cancel_left h)).2⟩

/-- White space and digits in the range of a conversion. -/
structure TimeField (c : Conversion) where
  blank : Bytes
  digits : Bytes
  isSpace_of_mem : ∀ b ∈ blank,isSpace b
  isDigit_of_mem : ∀ b ∈ digits,isDigit b
  digits_ne_nil : digits ≠ []
  length_le : digits.length ≤ c.width
  low_le : c.low ≤ digitsValue digits
  le_high : digitsValue digits ≤ c.high

namespace TimeField

variable {c : Conversion}

def text (t : TimeField c) : Bytes := t.blank ++ t.digits

lemma length_text_pos (t : TimeField c) : 0 < t.text.length := by
  have hpos := List.length_pos_iff.mpr t.digits_ne_nil
  rw [text,List.length_append]
  omega

def value (t : TimeField c) : ℕ := digitsValue t.digits

/-- The number could not have been read any further. -/
def EndsAt (t : TimeField c) (rest : Bytes) : Prop :=
  t.digits.length = c.width ∨ c.high < 10*t.value ∨ ∀ b ∈ rest.head?,isDigit b = false

/-- There is no white space where a digit stands. -/
lemma blank_eq_nil (t : TimeField c) {b : UInt8} {rest rest' : Bytes} (hb : isDigit b = true)
    (h : t.text ++ rest = b::rest') : t.blank = [] := by
  cases hblank : t.blank with
  | nil => rfl
  | cons x blank =>
    rw [text,hblank] at h
    obtain rfl : x = b := (List.cons.inj h).1
    have hx : isSpace x = true := t.isSpace_of_mem x (hblank ▸ List.mem_cons_self)
    rw [not_isSpace_of_isDigit hb] at hx
    cases hx

lemma padded_value (t : TimeField c) (h : t.blank = []) : padded t.text.length t.value = t.text := by
  rw [text,h,List.nil_append]
  exact padded_digitsValue t.isDigit_of_mem

/-- Digits that are followed by something else are read to their end. -/
lemma text_eq_of_append (t : TimeField c) {b x : UInt8} {digits rest rest' : Bytes} (hdigits : ∀ d ∈ b::digits,isDigit d)
    (hx : isDigit x = false) (h : t.text ++ x::rest = b::digits ++ x::rest') :
    t.text = b::digits ∧ padded (b::digits).length t.value = t.text ∧ rest = rest' := by
  have hblank := t.blank_eq_nil (hdigits b List.mem_cons_self) h
  have hdigits' : ∀ d ∈ t.text,isDigit d := by
    rw [text,hblank,List.nil_append]
    exact t.isDigit_of_mem
  obtain ⟨htext,rfl⟩ := digits_append_inj hx hdigits' hdigits h
  exact ⟨htext,htext ▸ t.padded_value hblank,rfl⟩

end TimeField

lemma moreDigits_spec (high : ℕ) {n val v : ℕ} {rp rest : Bytes} (h : moreDigits high n val rp = (v,rest)) :
    ∃ digits,rp = digits ++ rest ∧ (∀ b ∈ digits,isDigit b) ∧ digits.length ≤ n ∧
      v = digits.foldl (fun n c => 10*n+(c.toNat-48)) val ∧
      (digits.length = n ∨ high < 10*v ∨ ∀ b ∈ rest.head?,isDigit b = false) := by
  induction n generalizing val rp with
  | zero =>
    obtain ⟨rfl,rfl⟩ := Prod.mk.inj h
    exact ⟨[],rfl,by simp,le_rfl,rfl,.inl rfl⟩
  | succ n ih =>
    cases rp with
    | nil =>
      obtain ⟨rfl,rfl⟩ := Prod.mk.inj h
      exact ⟨[],rfl,by simp,Nat.zero_le _,rfl,.inr (.inr (by simp))⟩
    | cons c rp =>
      rw [moreDigits] at h
      split_ifs at h with hmore
      · obtain ⟨digits,rfl,hdigits,hlength,hv,hend⟩ := ih h
        refine ⟨c::digits,rfl,List.forall_mem_cons.mpr ⟨hmore.2,hdigits⟩,Nat.succ_le_succ hlength,hv,?_⟩
        exact hend.imp_left (congrArg (·+1))
      · obtain ⟨rfl,rfl⟩ := Prod.mk.inj h
        refine ⟨[],rfl,by simp,Nat.zero_le _,rfl,.inr ?_⟩
        rcases not_and_or.mp hmore with hhigh | hdigit
        · exact .inl (not_le.mp hhigh)
        · exact .inr (by simpa using hdigit)

theorem getNumber_spec {c : Conversion} {rp rest : Bytes} {v : ℕ}
    (h : getNumber c.low c.high c.width rp = some (v,rest)) :
    ∃ t : TimeField c,rp = t.text ++ rest ∧ v = t.value ∧ t.EndsAt rest := by
  rw [getNumber] at h
  split at h
  · cases h
  · next b rp' hrp =>
    split_ifs at h with hdigit
    obtain ⟨⟨val,rp''⟩,hmore⟩ : ∃ r,moreDigits c.high (c.width-1) (b.toNat-48) rp' = r := ⟨_,rfl⟩
    rw [hmore] at h
    dsimp only at h
    split_ifs at h with hrange
    obtain ⟨rfl,rfl⟩ := Prod.mk.inj (Option.some.inj h)
    obtain ⟨digits,rfl,hdigits,hlength,hval,hend⟩ := moreDigits_spec c.high hmore
    obtain rfl : val = digitsValue (b::digits) := by
      rw [hval,digitsValue,List.foldl_cons,Nat.mul_zero,Nat.zero_add]
    have hwidth : 0 < c.width := by cases c <;> decide
    refine ⟨⟨rp.takeWhile isSpace,b::digits,fun _ => List.mem_takeWhile_imp,List.forall_mem_cons.mpr ⟨hdigit,hdigits⟩,
      List.cons_ne_nil _ _,by rw [List.length_cons]; omega,hrange.1,hrange.2⟩,?_,rfl,?_⟩
    · rw [TimeField.text,List.append_assoc,List.cons_append,← hrp,List.takeWhile_append_dropWhile]
    · refine hend.imp_left fun h => ?_
      change digits.length+1 = c.width
      omega

/-! What is accepted for a directive. -/

section

variable {fmt : List Directive} {rp : Bytes} {tm tm' : Tm}

lemma scan_conversion {c : Conversion} (h : scan (.conversion c::fmt) rp tm = some tm') :
    ∃ (t : TimeField c) (rest : Bytes),rp = t.text ++ rest ∧ t.EndsAt rest ∧ scan fmt rest (tm.set c t.value) = some tm' := by
  obtain ⟨⟨v,rest⟩,hnumber,h⟩ := Option.bind_eq_some_iff.mp h
  obtain ⟨t,rfl,rfl,hend⟩ := getNumber_spec hnumber
  exact ⟨t,rest,rfl,hend,h⟩

lemma scan_char {c : UInt8} (h : scan (.char c::fmt) rp tm = some tm') :
    ∃ rest,rp = c::rest ∧ scan fmt rest tm = some tm' := by
  cases rp with
  | nil => cases h
  | cons x rest =>
    rw [scan] at h
    split_ifs at h with hx
    exact ⟨rest,hx ▸ rfl,h⟩

lemma scan_space (h : scan (.space::fmt) rp tm = some tm') :
    ∃ blank rest,rp = blank ++ rest ∧ (∀ b ∈ blank,isSpace b) ∧ scan fmt rest tm = some tm' :=
  ⟨rp.takeWhile isSpace,_,List.takeWhile_append_dropWhile.symm,fun _ => List.mem_takeWhile_imp,h⟩

end

end Logjam
