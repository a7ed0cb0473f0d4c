import Logjam.Basic.Bytes

/-! Decimal numbers in texts: what the printf conversions write, and the loops that read it back. -/
namespace Logjam

/-- A loop that reads decimal digits into an unsigned number of the given range, and the text it
stops at. -/
def scanDigits (range : ℕ) : ℕ → Bytes → ℕ × Bytes
  | value,c::s =>
    if isDigit c then scanDigits range ((value*10%range+(c.toNat-48))%range) s else (value,c::s)
  | value,[] => (value,[])

def digitByte (d : ℕ) : UInt8 := UInt8.ofNat (48+d)

lemma toNat_digitChar {d : ℕ} (h : d < 10) : (Nat.digitChar d).toNat = 48+d := by
  interval_cases d <;> rfl

lemma decimal_of_lt {n : ℕ} (h : n < 10) : decimal n = [digitByte n] := by
  rw [decimal,Nat.toDigits_of_lt_base h,List.map_singleton,toNat_digitChar h,digitByte]

lemma decimal_of_le {n : ℕ} (h : 10 ≤ n) : decimal n = decimal (n/10) ++ [digitByte (n%10)] := by
  rw [decimal,Nat.toDigits_of_base_le (by omega) h,List.map_append,List.map_singleton,
    toNat_digitChar (Nat.mod_lt n (by omega)),decimal,digitByte]

lemma toNat_digitByte {d : ℕ} (h : d < 10) : (digitByte d).toNat = 48+d := by
  rw [digitByte,UInt8.toNat_ofNat']
  omega

lemma isDigit_digitByte {d : ℕ} (h : d < 10) : isDigit (digitByte d) = true := by
  interval_cases d <;> rfl

lemma isDigit_of_mem_decimal {n : ℕ} {c : UInt8} (h : c ∈ decimal n) : isDigit c = true := by
  induction n using Nat.strong_induction_on with
  | _ n ih =>
    by_cases hn : n < 10
    · rw [decimal_of_lt hn,List.mem_singleton] at h
      exact h ▸ isDigit_digitByte hn
    · rw [decimal_of_le (by omega),List.mem_append,List.mem_singleton] at h
      rcases h with h | rfl
      · exact ih (n/10) (by omega) h
      · exact isDigit_digitByte (Nat.mod_lt n (by norm_num))

lemma scanDigits_digitByte {range value d : ℕ} (h : d < 10) (hrange : value*10+d < range) (text : Bytes) :
    scanDigits range value (digitByte d::text) = scanDigits range (value*10+d) text := by
  have hten : value*10%range = value*10 := Nat.mod_eq_of_lt (by omega)
  rw [scanDigits,if_pos (isDigit_digitByte h),toNat_digitByte h,hten,Nat.add_sub_cancel_left,
    Nat.mod_eq_of_lt hrange]

/-- The loop reads a number that is in range, and goes on behind it. -/
theorem scanDigits_decimal {range n : ℕ} (h : n < range) (text : Bytes) :
    scanDigits range 0 (decimal n ++ text) = scanDigits range n text := by
  -- digits are appended at the end, so the number without its last digit is read first
  induction n using Nat.strong_induction_on generalizing text with
  | _ n ih =>
    by_cases hn : n < 10
    · rw [decimal_of_lt hn,List.singleton_append,scanDigits_digitByte hn (by omega),Nat.zero_mul,Nat.zero_add]
    · have hlast : n%10 < 10 := Nat.mod_lt n (by omega)
      have hvalue : n/10*10+n%10 = n := Nat.div_add_mod' n 10
      rw [decimal_of_le (not_lt.mp hn),List.append_assoc,ih (n/10) (by omega) (by omega),
        List.singleton_append,scanDigits_digitByte hlast (by omega),hvalue]

lemma sizeOfInt_of_nonneg {n : ℤ} (h : 0 ≤ n) (hlt : n < 2^64) : sizeOfInt n = n.toNat := by
  rw [sizeOfInt,Int.emod_eq_of_lt h hlt]

lemma decimalInt_of_nonneg {n : ℤ} (h : 0 ≤ n) : decimalInt n = decimal n.toNat := by
  obtain ⟨k,rfl⟩ := Int.eq_ofNat_of_zero_le h
  rfl

/-- A dash ends the number. -/
lemma scanDigits_dash (range value : ℕ) (text : Bytes) :
    scanDigits range value (lit "-" ++ text) = (value,lit "-" ++ text) := rfl

/-- A number and a dash can be told from what follows. -/
theorem decimal_dash_inj {m n : ℕ} {x y : Bytes}
    (h : decimal m ++ (lit "-" ++ x) = decimal n ++ (lit "-" ++ y)) : m = n ∧ x = y := by
  have hscan := congrArg (scanDigits (m+n+1) 0) h
  rw [scanDigits_decimal (by omega),scanDigits_decimal (by omega),scanDigits_dash,scanDigits_dash] at hscan
  obtain ⟨hvalue,hrest⟩ := Prod.mk.inj hscan
  exact ⟨hvalue,List.append_cancel_left hrest⟩

lemma decimal_ne_nil (n : ℕ) : decimal n ≠ [] := by
  by_cases hn : n < 10
  · rw [decimal_of_lt hn]
    exact List.cons_ne_nil _ _
  · rw [decimal_of_le (not_lt.mp hn)]
    exact List.append_ne_nil_of_right_ne_nil _ (List.cons_ne_nil _ _)

/-- A number does not begin with a dash. -/
lemma decimal_append_ne_dash (n : ℕ) (x y : Bytes) : decimal n ++ (lit "-" ++ x) ≠ lit "-" ++ y := by
  intro h
  have hscan := congrArg (scanDigits (n+1) 0) h
  rw [scanDigits_decimal (by omega),scanDigits_dash,scanDigits_dash] at hscan
  have hrest : lit "-" ++ x = lit "-" ++ y := (Prod.mk.inj hscan).2
  rw [hrest,List.append_left_eq_self] at h
  exact decimal_ne_nil n h

theorem decimalInt_dash_inj {m n : ℤ} {x y : Bytes}
    (h : decimalInt m ++ (lit "-" ++ x) = decimalInt n ++ (lit "-" ++ y)) : m = n ∧ x = y := by
  cases m with
  | ofNat m =>
    cases n with
    | ofNat n =>
      obtain ⟨rfl,rfl⟩ := decimal_dash_inj h
      exact ⟨rfl,rfl⟩
    | negSucc n => exact absurd h (decimal_append_ne_dash m _ _)
  | negSucc m =>
    cases n with
    | ofNat n => exact absurd h.symm (decimal_append_ne_dash n _ _)
    | negSucc n =>
      rw [decimalInt,decimalInt,List.append_assoc,List.append_assoc] at h
      obtain ⟨hmn,rfl⟩ := decimal_dash_inj (List.append_cancel_left h)
      exact ⟨by rw [Nat.succ.inj hmn],rfl⟩

lemma sizeOfInt_inj {m n : ℤ} (hm : m ∈ Set.Ico (-2^31) (2^31)) (hn : n ∈ Set.Ico (-2^31) (2^31))
    (h : sizeOfInt m = sizeOfInt n) : m = n := by
  simp only [sizeOfInt,Set.mem_Ico] at hm hn h
  omega

/-! The numbers atoi reads. -/

lemma atoi_cons_of_isDigit {c : UInt8} (hc : isDigit c = true) (t : Bytes) : atoi (c::t) = leadingDigits (c::t) := by
  unfold atoi
  rw [List.dropWhile_cons_of_neg (by rw [not_isSpace_of_isDigit hc]; decide)]
  split
  · next h =>
    obtain ⟨rfl,-⟩ := List.cons.inj h
    cases hc
  · next h =>
    obtain ⟨rfl,-⟩ := List.cons.inj h
    cases hc
  · rfl

lemma leadingDigits_decimal (n : ℕ) : leadingDigits (decimal n) = n := by
  have hall (n : ℕ) : (decimal n).takeWhile isDigit = decimal n :=
    List.takeWhile_eq_self_iff.mpr fun _ hc => isDigit_of_mem_decimal hc
  rw [leadingDigits,hall]
  induction n using Nat.strong_induction_on with
  | _ n ih =>
    by_cases hn : n < 10
    · rw [decimal_of_lt hn,List.foldl_cons,List.foldl_nil,toNat_digitByte hn]
      omega
    · have hlast : n%10 < 10 := Nat.mod_lt n (by omega)
      rw [decimal_of_le (not_lt.mp hn),List.foldl_append,ih (n/10) (by omega),List.foldl_cons,List.foldl_nil,
        toNat_digitByte hlast]
      omega

/-- What has been printed is read back. -/
theorem atoi_decimalInt (n : ℤ) : atoi (decimalInt n) = n := by
  cases n with
  | ofNat n =>
    have hdigits := leadingDigits_decimal n
    change atoi (decimal n) = n
    cases htext : decimal n with
    | nil => exact absurd htext (decimal_ne_nil n)
    | cons c t =>
      have hc : isDigit c = true := isDigit_of_mem_decimal (htext ▸ List.mem_cons_self)
      rw [htext] at hdigits
      rw [atoi_cons_of_isDigit hc,hdigits]
  | negSucc n =>
    change -(leadingDigits (decimal (n+1)) : ℤ) = _
    rw [leadingDigits_decimal]
    rfl

/-! The numbers atoi reads from short texts. -/

lemma foldl_digits_lt {digits : Bytes} (h : ∀ c ∈ digits,isDigit c) (value : ℕ) :
    digits.foldl (fun n c => 10*n+(c.toNat-48)) value < (value+1)*10^digits.length := by
  induction digits generalizing value with
  | nil => simp
  | cons c digits ih =>
    have hc := isDigit_iff.mp (h c List.mem_cons_self)
    have hdigit : c.toNat-48+1 ≤ 10 := by omega
    have hrest := ih (fun d hd => h d (List.mem_cons_of_mem _ hd)) (10*value+(c.toNat-48))
    calc _ < (10*value+(c.toNat-48)+1)*10^digits.length := hrest
      _ ≤ ((value+1)*10)*10^digits.length := Nat.mul_le_mul_right _ (by omega)
      _ = (value+1)*10^(digits.length+1) := by ring

lemma leadingDigits_lt (s : Bytes) : leadingDigits s < 10^s.length := by
  have hdigits : ∀ c ∈ s.takeWhile isDigit,isDigit c := fun _ hc => List.mem_takeWhile_imp hc
  calc leadingDigits s < (0+1)*10^(s.takeWhile isDigit).length := foldl_digits_lt hdigits 0
    _ = 10^(s.takeWhile isDigit).length := by rw [Nat.zero_add,Nat.one_mul]
    _ ≤ 10^s.length := Nat.pow_le_pow_right (by omega) (List.takeWhile_prefix _).length_le

lemma abs_atoi_lt (s : Bytes) : |atoi s| < 10^s.length := by
  have hlength (t : Bytes) (h : t.length ≤ s.length) : |(leadingDigits t : ℤ)| < 10^s.length := by
    rw [Nat.abs_cast]
    exact_mod_cast (leadingDigits_lt t).trans_le (Nat.pow_le_pow_right (by omega) h)
  have hdrop : (s.dropWhile isSpace).length ≤ s.length := (List.dropWhile_suffix _).length_le
  rw [atoi]
  split
  · next t ht =>
    rw [ht,List.length_cons] at hdrop
    rw [abs_neg]
    exact hlength t (by omega)
  · next t ht =>
    rw [ht,List.length_cons] at hdrop
    exact hlength t (by omega)
  · exact hlength _ hdrop

end Logjam
