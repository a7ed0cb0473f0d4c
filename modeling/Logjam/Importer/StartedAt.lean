import Logjam.Basic.Time
import Logjam.Importer.Parser

/-! The start of a request is checked by strptime, but its day and minute are cut out of the text at fixed
places. The two agree for texts in the usual layout, not for all that strptime accepts. -/
namespace Logjam.Importer

variable {n : ℕ} {s : Bytes} {now tm : Tm}

/-! Accepted texts. -/

/-- The call of strptime in valid_database_date. The fields are those of the last tick before. -/
def parseDate (now : Tm) (date : Bytes) : Option Tm :=
  strptime date (if date.getD 10 0 = 84 then lit "%Y-%m-%dT%H:%M:%S" else lit "%Y-%m-%d %H:%M:%S") now

/-- An importer that checks dates with strptime, whatever drift it tolerates. -/
def Env.checkingDates (env : Env n) (now : Tm) (tolerable : Tm → Bool) : Env n :=
  { env with dateWithinDrift := fun date => (parseDate now date).any tolerable }

/-- The parts of a text that strptime accepts. -/
structure Layout (s : Bytes) (tm : Tm) where
  year : TimeField .year
  month : TimeField .month
  day : TimeField .day
  gap : Bytes
  hour : TimeField .hour
  minute : TimeField .minute
  rest : Bytes
  text_eq : s = year.text ++ 45::(month.text ++ 45::(day.text ++
    (gap ++ (hour.text ++ 58::(minute.text ++ 58::rest)))))
  day_ends : day.EndsAt (gap ++ (hour.text ++ 58::(minute.text ++ 58::rest)))
  gap_eq : gap = [84] ∨ ∀ b ∈ gap,isSpace b
  year_eq : tm.year = year.value
  month_eq : tm.month = month.value
  day_eq : tm.day = day.value
  hour_eq : tm.hour = hour.value
  min_eq : tm.min = minute.value

lemma directives_date :
    directives (lit "%Y-%m-%d %H:%M:%S") = some [.conversion .year,.char 45,.conversion .month,.char 45,.conversion .day,
      .space,.conversion .hour,.char 58,.conversion .minute,.char 58,.conversion .second] := rfl

lemma directives_date_T :
    directives (lit "%Y-%m-%dT%H:%M:%S") = some [.conversion .year,.char 45,.conversion .month,.char 45,.conversion .day,
      .char 84,.conversion .hour,.char 58,.conversion .minute,.char 58,.conversion .second] := rfl

lemma scan_gap {sep : Directive} {fmt : List Directive} {rp : Bytes} {tm' : Tm} (hsep : sep = .char 84 ∨ sep = .space)
    (h : scan (sep::fmt) rp tm = some tm') :
    ∃ gap rest,rp = gap ++ rest ∧ (gap = [84] ∨ ∀ b ∈ gap,isSpace b) ∧ scan fmt rest tm = some tm' := by
  rcases hsep with rfl | rfl
  · obtain ⟨rest,rfl,h⟩ := scan_char h
    exact ⟨[84],rest,rfl,.inl rfl,h⟩
  · obtain ⟨blank,rest,rfl,hblank,h⟩ := scan_space h
    exact ⟨blank,rest,rfl,.inr hblank,h⟩

/-- The two formats differ in the directive between the date and the time. -/
lemma exists_layout (h : parseDate now s = some tm) : Nonempty (Layout s tm) := by
  obtain ⟨sep,hsep,h⟩ : ∃ sep : Directive,(sep = .char 84 ∨ sep = .space) ∧
      scan [.conversion .year,.char 45,.conversion .month,.char 45,.conversion .day,sep,.conversion .hour,.char 58,
        .conversion .minute,.char 58,.conversion .second] s now = some tm := by
    rw [parseDate] at h
    split_ifs at h
    · rw [strptime,directives_date_T] at h
      exact ⟨_,.inl rfl,h⟩
    · rw [strptime,directives_date] at h
      exact ⟨_,.inr rfl,h⟩
  obtain ⟨year,_,rfl,-,h⟩ := scan_conversion h
  obtain ⟨_,rfl,h⟩ := scan_char h
  obtain ⟨month,_,rfl,-,h⟩ := scan_conversion h
  obtain ⟨_,rfl,h⟩ := scan_char h
  obtain ⟨day,_,rfl,hday,h⟩ := scan_conversion h
  obtain ⟨gap,_,rfl,hgap,h⟩ := scan_gap hsep h
  obtain ⟨hour,_,rfl,-,h⟩ := scan_conversion h
  obtain ⟨_,rfl,h⟩ := scan_char h
  obtain ⟨minute,_,rfl,-,h⟩ := scan_conversion h
  obtain ⟨_,rfl,h⟩ := scan_char h
  obtain ⟨second,rest,rfl,-,h⟩ := scan_conversion h
  obtain rfl := Option.some.inj h
  exact ⟨⟨year,month,day,gap,hour,minute,_,rfl,hday,hgap,rfl,rfl,rfl,rfl,rfl⟩⟩

/-! The date. -/

/-- The first ten characters are a date with all of its digits, its day not above 39. -/
def plainDate : Bytes → Bool
  | y₁::y₂::y₃::y₄::x::m₁::m₂::z::d₁::d₂::_ =>
    [y₁,y₂,y₃,y₄,m₁,m₂,d₁,d₂].all isDigit && x == 45 && z == 45 && decide (d₁.toNat ≤ 51)
  | _ => false

lemma exists_of_plainDate (h : plainDate s = true) :
    ∃ y₁ y₂ y₃ y₄ m₁ m₂ d₁ d₂ t,s = [y₁,y₂,y₃,y₄] ++ 45::([m₁,m₂] ++ 45::([d₁,d₂] ++ t)) ∧
      (∀ b ∈ [y₁,y₂,y₃,y₄],isDigit b) ∧ (∀ b ∈ [m₁,m₂],isDigit b) ∧ (∀ b ∈ [d₁,d₂],isDigit b) ∧ d₁.toNat ≤ 51 := by
  unfold plainDate at h
  split at h
  · next y₁ y₂ y₃ y₄ x m₁ m₂ z d₁ d₂ t =>
    simp only [Bool.and_eq_true,List.all_cons,List.all_nil,beq_iff_eq,decide_eq_true_eq,and_true] at h
    obtain ⟨⟨⟨⟨h₁,h₂,h₃,h₄,h₅,h₆,h₇,h₈⟩,rfl⟩,rfl⟩,hday⟩ := h
    refine ⟨y₁,y₂,y₃,y₄,m₁,m₂,d₁,d₂,t,rfl,?_,?_,?_,hday⟩
    all_goals simp only [List.forall_mem_cons,List.not_mem_nil,false_imp_iff,implies_true,and_true]
    · exact ⟨h₁,h₂,h₃,h₄⟩
    · exact ⟨h₅,h₆⟩
    · exact ⟨h₇,h₈⟩
  · cases h

lemma plainDate_of_take (hday : tm.day ≤ 31) (h : s.take 10 = tm.dateText) : plainDate s = true := by
  have hdigit (n : ℕ) : isDigit (digitByte (n%10)) = true := isDigit_digitByte (Nat.mod_lt n (by decide))
  have hthree : (digitByte (tm.day/10%10)).toNat ≤ 51 := by
    rw [toNat_digitByte (by omega)]
    omega
  rw [← List.take_append_drop 10 s,h]
  simp only [Tm.dateText,padded,List.nil_append,List.cons_append,plainDate,List.all_cons,List.all_nil,hdigit,hthree,beq_self_eq_true,
    Bool.and_self,decide_true]

namespace Layout

/-- The text behind the date. -/
def clock (l : Layout s tm) : Bytes := l.gap ++ (l.hour.text ++ 58::(l.minute.text ++ 58::l.rest))

/-- The day is read to its second digit. -/
lemma day_eq_of_append (l : Layout s tm) {d₁ d₂ : UInt8} {t : Bytes} (hdigits : ∀ b ∈ [d₁,d₂],isDigit b) (hthree : d₁.toNat ≤ 51)
    (h : l.day.text ++ l.clock = [d₁,d₂] ++ t) : l.day.text = padded 2 l.day.value := by
  have hblank := l.day.blank_eq_nil (hdigits d₁ List.mem_cons_self) h
  have hpadded := l.day.padded_value hblank
  have hlength : l.day.digits.length ≤ 2 := l.day.length_le
  have hends := l.day_ends
  rw [TimeField.text,hblank,List.nil_append] at h hpadded ⊢
  have hone (d : UInt8) (hday : l.day.digits = [d]) : False := by
    rw [hday] at h
    obtain rfl : d = d₁ := (List.cons.inj h).1
    have hclock : l.clock = d₂::t := (List.cons.inj h).2
    rcases hends with hwidth | hhigh | hhead
    · rw [hday] at hwidth
      cases hwidth
    · have hvalue : l.day.value = d.toNat-48 := by
        rw [TimeField.value,hday,digitsValue]
        simp
      rw [hvalue,Conversion.high] at hhigh
      omega
    · have hd₂ := hhead d₂ (by rw [← clock,hclock]; rfl)
      rw [hdigits d₂ (by simp)] at hd₂
      cases hd₂
  have htwo : l.day.digits.length = 2 := by
    have hpos := List.length_pos_iff.mpr l.day.digits_ne_nil
    have hne : l.day.digits.length ≠ 1 := fun h => (List.length_eq_one_iff.mp h).elim hone
    omega
  rw [htwo] at hpadded
  exact hpadded.symm

/-- A date of ten characters is read as it is written. -/
lemma date_eq (l : Layout s tm) (h : plainDate s = true) : s = tm.dateText ++ l.clock := by
  obtain ⟨y₁,y₂,y₃,y₄,m₁,m₂,d₁,d₂,t,hs,hyear,hmonth,hday,hthree⟩ := exists_of_plainDate h
  obtain ⟨-,hyear',hrest⟩ := l.year.text_eq_of_append hyear rfl (l.text_eq.symm.trans hs)
  obtain ⟨-,hmonth',hrest⟩ := l.month.text_eq_of_append hmonth rfl hrest
  have hday' := l.day_eq_of_append hday hthree hrest
  conv_lhs => rw [l.text_eq]
  rw [Tm.dateText,l.year_eq,l.month_eq,l.day_eq,← hday']
  change padded 4 l.year.value = _ at hyear'
  change padded 2 l.month.value = _ at hmonth'
  rw [hyear',hmonth',clock,List.append_assoc,List.cons_append,List.append_assoc,List.cons_append]

end Layout

/-! The clock. -/

/-- The number that atoi finds in two characters. -/
def numberAt (s : Bytes) (k : ℕ) : ℤ := atoi (cstr [s.getD k 0,s.getD (k+1) 0])

lemma numberAt_succ (c : UInt8) (t : Bytes) (k : ℕ) : numberAt (c::t) (k+1) = numberAt t k := rfl

lemma numberAt_append (a t : Bytes) (k : ℕ) : numberAt (a ++ t) (a.length+k) = numberAt t k := by
  induction a with
  | nil => rw [List.length_nil,Nat.zero_add,List.nil_append]
  | cons c a ih =>
    rw [List.cons_append,List.length_cons,Nat.add_right_comm,numberAt_succ,ih]

section

variable {a b : UInt8} {t : Bytes}

lemma numberAt_colon (t : Bytes) : numberAt (58::t) 0 = 0 := by
  have hcstr (x : UInt8) : ∃ u,cstr [58,x] = 58::u := ⟨_,rfl⟩
  obtain ⟨u,hu⟩ := hcstr (t.getD 0 0)
  change atoi (cstr [58,t.getD 0 0]) = 0
  rw [hu]
  rfl

lemma atoi_cons_of_isSpace (ha : isSpace a = true) (t : Bytes) : atoi (a::t) = atoi t := by
  rw [atoi,List.dropWhile_cons_of_pos ha,atoi]

lemma numberAt_of_ne (ha : a ≠ 0) (hb : b ≠ 0) : numberAt (a::b::t) 0 = atoi [a,b] := by
  change atoi (cstr [a,b]) = _
  rw [cstr_of_notMem (by simp [ha.symm,hb.symm])]

lemma ne_zero_of_class {p : UInt8 → Bool} (h : p a = true) (hzero : p 0 = false) : a ≠ 0 := by
  rintro rfl
  rw [h] at hzero
  cases hzero

lemma numberAt_digits (ha : isDigit a = true) (hb : isDigit b = true) : numberAt (a::b::t) 0 = digitsValue [a,b] := by
  rw [numberAt_of_ne (ne_zero_of_class ha rfl) (ne_zero_of_class hb rfl),atoi_cons_of_isDigit ha,leadingDigits,
    List.takeWhile_cons_of_pos ha,List.takeWhile_cons_of_pos hb]
  rfl

lemma numberAt_digit_colon (ha : isDigit a = true) : numberAt (a::58::t) 0 = digitsValue [a] := by
  rw [numberAt_of_ne (ne_zero_of_class ha rfl) (by decide),atoi_cons_of_isDigit ha,leadingDigits,List.takeWhile_cons_of_pos ha]
  rfl

lemma numberAt_space_digit (ha : isSpace a = true) (hb : isDigit b = true) : numberAt (a::b::t) 0 = digitsValue [b] := by
  rw [numberAt_of_ne (ne_zero_of_class ha rfl) (ne_zero_of_class hb rfl),atoi_cons_of_isSpace ha,atoi_cons_of_isDigit hb,leadingDigits,
    List.takeWhile_cons_of_pos hb]
  rfl

lemma numberAt_spaces (ha : isSpace a = true) (hb : isSpace b = true) : numberAt (a::b::t) 0 = 0 := by
  rw [numberAt_of_ne (ne_zero_of_class ha rfl) (ne_zero_of_class hb rfl),atoi_cons_of_isSpace ha,atoi_cons_of_isSpace hb]
  rfl

lemma digitsValue_singleton_lt (ha : isDigit a = true) : digitsValue [a] < 10 := by
  have hrange := isDigit_iff.mp ha
  change 10*0+(a.toNat-48) < 10
  omega

lemma digitsValue_pair (a b : UInt8) : digitsValue [a,b] = 10*digitsValue [a]+digitsValue [b] := by
  simp [digitsValue]

end

/-- What two characters show of a number at the end of a field. The number is shown completely if it ends with
the second of them, or with the first and does not need two digits. -/
structure ShownAt (len k v : ℕ) (x : ℤ) : Prop where
  nonneg : 0 ≤ x
  le_value : x ≤ v
  eq_value_iff : x = v ↔ v = 0 ∨ len = k+2 ∨ len = k+1 ∧ v < 10
  eq_zero_of_eq : len = k → x = 0

lemma ShownAt.succ {len k v : ℕ} {x : ℤ} (h : ShownAt len k v x) : ShownAt (len+1) (k+1) v x where
  nonneg := h.nonneg
  le_value := h.le_value
  eq_value_iff := h.eq_value_iff.trans (by omega)
  eq_zero_of_eq hlen := h.eq_zero_of_eq (by omega)

lemma eq_singleton_or_pair {digits : Bytes} (hne : digits ≠ []) (htwo : digits.length ≤ 2) :
    (∃ a,digits = [a]) ∨ ∃ a b,digits = [a,b] := by
  have hpos := List.length_pos_iff.mpr hne
  rcases Nat.lt_or_ge 1 digits.length with hlt | hge
  · exact .inr (List.length_eq_two.mp (by omega))
  · exact .inl (List.length_eq_one_iff.mp (by omega))

lemma shownAt_colon (v : ℕ) (k : ℕ) (rest : Bytes) : ShownAt k k v (numberAt (58::rest) 0) := by
  rw [numberAt_colon]
  exact ⟨le_rfl,by omega,by omega,fun _ => rfl⟩

lemma shownAt_digits {digits : Bytes} (hdigits : ∀ b ∈ digits,isDigit b) (hne : digits ≠ []) (htwo : digits.length ≤ 2) {k : ℕ}
    (hk : k ≤ digits.length) (rest : Bytes) : ShownAt digits.length k (digitsValue digits) (numberAt (digits ++ 58::rest) k) := by
  rcases eq_singleton_or_pair hne htwo with ⟨a,rfl⟩ | ⟨a,b,rfl⟩
  · have ha := hdigits a List.mem_cons_self
    have hlt := digitsValue_singleton_lt ha
    rcases k with _ | _ | k
    · change ShownAt 1 0 _ (numberAt (a::58::rest) 0)
      rw [numberAt_digit_colon ha]
      exact ⟨by omega,le_rfl,by omega,by omega⟩
    · exact shownAt_colon _ 1 rest
    · rw [List.length_singleton] at hk
      omega
  · have ha := hdigits a List.mem_cons_self
    have hb := hdigits b (List.mem_cons_of_mem _ List.mem_cons_self)
    have hlt := digitsValue_singleton_lt hb
    have hpair := digitsValue_pair a b
    rcases k with _ | _ | _ | k
    · change ShownAt 2 0 _ (numberAt (a::b::58::rest) 0)
      rw [numberAt_digits ha hb]
      exact ⟨by omega,le_rfl,by omega,by omega⟩
    · change ShownAt 2 1 _ (numberAt (b::58::rest) 0)
      rw [numberAt_digit_colon hb]
      exact ⟨by omega,by omega,by omega,by omega⟩
    · exact shownAt_colon _ 2 rest
    · rw [List.length_cons,List.length_singleton] at hk
      omega

/-- One or two digits behind white space and in front of a colon. -/
lemma shownAt_field {blank digits : Bytes} (hblank : ∀ b ∈ blank,isSpace b) (hdigits : ∀ b ∈ digits,isDigit b) (hne : digits ≠ [])
    (htwo : digits.length ≤ 2) {k : ℕ} (hk : k ≤ (blank ++ digits).length) (rest : Bytes) :
    ShownAt (blank ++ digits).length k (digitsValue digits) (numberAt (blank ++ digits ++ 58::rest) k) := by
  induction blank generalizing k with
  | nil => exact shownAt_digits hdigits hne htwo hk rest
  | cons x blank ih =>
    obtain ⟨hx,hblank⟩ := List.forall_mem_cons.mp hblank
    cases k with
    | succ k => exact (ih hblank (Nat.le_of_succ_le_succ hk)).succ
    | zero =>
      rcases blank with _ | ⟨y,blank⟩
      · -- only the first digit is next to the white space
        rcases eq_singleton_or_pair hne htwo with ⟨a,rfl⟩ | ⟨a,b,rfl⟩
        · change ShownAt 2 0 _ (numberAt (x::a::58::rest) 0)
          rw [numberAt_space_digit hx (hdigits a List.mem_cons_self)]
          exact ⟨by omega,le_rfl,by omega,by omega⟩
        · have hpair := digitsValue_pair a b
          change ShownAt 3 0 _ (numberAt (x::a::b::58::rest) 0)
          rw [numberAt_space_digit hx (hdigits a List.mem_cons_self)]
          exact ⟨by omega,by omega,by omega,by omega⟩
      · have hpos := List.length_pos_iff.mpr hne
        change ShownAt _ 0 _ (numberAt (x::y::(blank ++ digits ++ 58::rest)) 0)
        rw [numberAt_spaces hx (hblank y List.mem_cons_self)]
        simp only [List.cons_append,List.length_cons,List.length_append]
        exact ⟨le_rfl,by omega,by omega,by omega⟩

namespace Layout

variable (l : Layout s tm)

/-- The place of the first colon in the text behind the date. -/
def first : ℕ := (l.gap ++ l.hour.text).length

/-- How much stands between the two colons. -/
def second : ℕ := l.minute.text.length

lemma shownAt_hour {k : ℕ} (hpos : 1 ≤ k) (hk : k ≤ l.first) : ShownAt l.first k tm.hour (numberAt l.clock k) := by
  rw [l.hour_eq]
  rcases l.gap_eq with hgap | hgap
  · -- a T instead of the first white space
    obtain ⟨k,rfl⟩ := Nat.exists_eq_add_one_of_ne_zero (by omega : k ≠ 0)
    rw [first,hgap,List.singleton_append,List.length_cons] at hk ⊢
    rw [clock,hgap]
    exact (shownAt_field l.hour.isSpace_of_mem l.hour.isDigit_of_mem l.hour.digits_ne_nil l.hour.length_le
      (Nat.le_of_succ_le_succ hk) _).succ
  · have hblank : ∀ b ∈ l.gap ++ l.hour.blank,isSpace b := List.forall_mem_append.mpr ⟨hgap,l.hour.isSpace_of_mem⟩
    have hshown := shownAt_field hblank l.hour.isDigit_of_mem l.hour.digits_ne_nil l.hour.length_le
      (by rwa [List.append_assoc] : k ≤ (l.gap ++ l.hour.blank ++ l.hour.digits).length) (l.minute.text ++ 58::l.rest)
    rw [List.append_assoc,List.append_assoc] at hshown
    exact hshown

lemma shownAt_minute {k : ℕ} (hk : k ≤ l.second) :
    ShownAt l.second k tm.min (numberAt l.clock (l.first+1+k)) := by
  have hclock : l.clock = (l.gap ++ l.hour.text ++ [58]) ++ (l.minute.text ++ 58::l.rest) := by
    simp only [clock,List.append_assoc,List.cons_append,List.nil_append]
  have hlength : (l.gap ++ l.hour.text ++ [58]).length = l.first+1 := by
    rw [List.length_append]
    rfl
  rw [l.min_eq,hclock,← hlength,numberAt_append]
  exact shownAt_field l.minute.isSpace_of_mem l.minute.isDigit_of_mem l.minute.digits_ne_nil l.minute.length_le hk l.rest

lemma first_pos : 0 < l.first := by
  have hpos := l.hour.length_text_pos
  rw [first,List.length_append]
  omega

lemma second_pos : 0 < l.second := l.minute.length_text_pos

/-- The places that are read show hour and minute of the text, or are those of the hour and the seconds. -/
lemma clock_iff :
    60*numberAt l.clock 1+numberAt l.clock 4 = 60*tm.hour+tm.min ↔
      if l.first+l.second = 2 then numberAt l.clock 4 = 60*tm.hour+tm.min
      else (tm.hour = 0 ∨ l.first = 3 ∨ l.first = 2 ∧ tm.hour < 10) ∧
        (tm.min = 0 ∨ l.first ≤ 3 ∧ l.first+l.second = 5 ∨ l.first+l.second = 4 ∧ tm.min < 10) := by
  have hfirst := l.first_pos
  have hsecond := l.second_pos
  have hhour := l.shownAt_hour le_rfl hfirst
  have hrange : tm.hour ≤ 23 := l.hour_eq ▸ l.hour.le_high
  have hle := hhour.le_value
  have hiff := hhour.eq_value_iff
  rcases Nat.lt_or_ge 3 l.first with hlate | hearly
  · -- nothing but white space and the hour, which is at most 23
    have hlast := l.shownAt_hour (by decide : 1 ≤ 4) hlate
    have hlast₀ := hlast.nonneg
    have hlast₁ := hlast.le_value
    rw [if_neg (by omega)]
    omega
  rcases Nat.lt_or_ge l.second (3-l.first) with hseconds | hin
  · have hzero := hhour.eq_zero_of_eq (by omega)
    rw [if_pos (by omega),hzero]
    omega
  · have hminute := l.shownAt_minute hin
    rw [show l.first+1+(3-l.first) = 4 by omega] at hminute
    have hmin₁ := hminute.le_value
    have hmin₂ := hminute.eq_value_iff
    rw [if_neg (by omega)]
    omega

end Layout

/-- Where the colons stand, given the numbers in front of them. A time of the form H:M:S directly behind the date
has its seconds where the minute is read. -/
def ClockInPlace (s : Bytes) (tm : Tm) : Prop :=
  let first := s.idxOf 58
  let second := first+1+(s.drop (first+1)).idxOf 58
  if second = 13 then numberAt s 14 = 60*tm.hour+tm.min
  else (tm.hour = 0 ∨ first = 13 ∨ first = 12 ∧ tm.hour < 10) ∧
    (tm.min = 0 ∨ first ≤ 13 ∧ second = 16 ∨ second = 15 ∧ tm.min < 10)

namespace Layout

variable (l : Layout s tm)

lemma colon_notMem {p : UInt8 → Bool} {text : Bytes} (h : ∀ b ∈ text,p b = true) (hcolon : p 58 = false) : 58 ∉ text := by
  intro hmem
  rw [h 58 hmem] at hcolon
  cases hcolon

lemma colon_notMem_text {c : Conversion} (t : TimeField c) : 58 ∉ t.text := by
  rw [TimeField.text,List.mem_append,not_or]
  exact ⟨colon_notMem t.isSpace_of_mem rfl,colon_notMem t.isDigit_of_mem rfl⟩

lemma colon_notMem_dateText (tm : Tm) : 58 ∉ tm.dateText := by
  have hpadded (k n : ℕ) : 58 ∉ padded k n := colon_notMem (fun _ => isDigit_of_mem_padded) rfl
  simp only [Tm.dateText,List.mem_append,List.mem_cons,hpadded,false_or,or_false]
  decide

lemma idxOf_append_cons {x t : Bytes} (h : 58 ∉ x) : (x ++ 58::t).idxOf 58 = x.length := by
  rw [List.idxOf_append_of_notMem h,List.idxOf_cons_self,Nat.add_zero]

/-- The clock starts behind the ten characters of the date. -/
lemma numberAt_eq (hs : s = tm.dateText ++ l.clock) (k : ℕ) : numberAt s (10+k) = numberAt l.clock k := by
  have happend := numberAt_append tm.dateText l.clock k
  rwa [← hs,Tm.length_dateText] at happend

lemma clockInPlace_iff (hs : s = tm.dateText ++ l.clock) :
    ClockInPlace s tm ↔
      if l.first+l.second = 2 then numberAt l.clock 4 = 60*tm.hour+tm.min
      else (tm.hour = 0 ∨ l.first = 3 ∨ l.first = 2 ∧ tm.hour < 10) ∧
        (tm.min = 0 ∨ l.first ≤ 3 ∧ l.first+l.second = 5 ∨ l.first+l.second = 4 ∧ tm.min < 10) := by
  have hgap : 58 ∉ l.gap := by
    rcases l.gap_eq with hgap | hgap
    · rw [hgap]
      decide
    · exact colon_notMem hgap rfl
  have hcolon : 58 ∉ tm.dateText ++ (l.gap ++ l.hour.text) := by
    simp only [List.mem_append,not_or]
    exact ⟨colon_notMem_dateText tm,hgap,colon_notMem_text l.hour⟩
  have hlength : (tm.dateText ++ (l.gap ++ l.hour.text)).length = 10+l.first := by
    rw [List.length_append,Tm.length_dateText]
    rfl
  have hsplit : s = (tm.dateText ++ (l.gap ++ l.hour.text)) ++ 58::(l.minute.text ++ 58::l.rest) :=
    hs.trans (by simp only [clock,List.append_assoc])
  have hfirst : s.idxOf 58 = 10+l.first := (congrArg (List.idxOf 58) hsplit).trans ((idxOf_append_cons hcolon).trans hlength)
  have hdrop : s.drop (10+l.first+1) = l.minute.text ++ 58::l.rest := by
    refine (congrArg (List.drop (10+l.first+1)) hsplit).trans ?_
    rw [← hlength,List.drop_length_add_append,List.drop_one,List.tail_cons]
  simp only [ClockInPlace,hfirst,hdrop,idxOf_append_cons (colon_notMem_text l.minute),l.numberAt_eq hs 4]
  rw [show l.minute.text.length = l.second from rfl]
  by_cases htwo : l.first+l.second = 2
  · rw [if_pos htwo,if_pos (by omega)]
  · rw [if_neg htwo,if_neg (by omega)]
    omega

end Layout

/-! Filing. -/

/-- The request gets the minute of a time, and is stored in the database of its day. -/
structure FiledUnder (lib : JsonLib) (request : JObject) (s : Bytes) (tm : Tm) : Prop where
  minute : ∃ patched,processorSetupMinute lib request = .ok (60*tm.hour+tm.min,patched)
  minute_lt : 60*tm.hour+tm.min < 1440
  date : ∀ stream,0 ∉ stream → databaseName stream s = lit "logjam-" ++ stream ++ lit "-" ++ tm.dateText

lemma date_iff : (∀ stream,0 ∉ stream → databaseName stream s = lit "logjam-" ++ stream ++ lit "-" ++ tm.dateText) ↔
    s.take 10 = tm.dateText := by
  have hname {stream : Bytes} (h : 0 ∉ stream) : databaseName stream s = lit "logjam-" ++ stream ++ lit "-" ++ s.take 10 := by
    simp only [databaseName,cstr_of_notMem h,if_true]
  constructor
  · intro h
    have hempty : (0 : UInt8) ∉ ([] : Bytes) := List.not_mem_nil
    have hnil := h [] hempty
    rw [hname hempty] at hnil
    exact List.append_cancel_left hnil
  · intro h stream hstream
    rw [hname hstream,h]

lemma processorSetupMinute_eq {lib : JsonLib} {request : JObject} {v : Json} (hrequest : request.lookup (lit "started_at") = some v)
    (hs : jsonObjectGetString lib v = some s) (hlength : 19 ≤ s.length) :
    ∃ patched,processorSetupMinute lib request = .ok (60*numberAt s 11+numberAt s 14,patched) := by
  refine ⟨request.add (lit "minute") (.int (60*numberAt s 11+numberAt s 14)),?_⟩
  simp only [processorSetupMinute,hrequest,jsonString,hs,bind,Except.bind,if_neg (show ¬s.length < 15 by omega)]
  rfl

theorem validDatabaseDate_filedUnder_iff (env : Env n) (now : Tm) (tolerable : Tm → Bool) {request : JObject} {v : Json} {s : Bytes}
    (hrequest : request.lookup (lit "started_at") = some v) (hs : jsonObjectGetString env.json v = some s)
    (hvalid : validDatabaseDate (env.checkingDates now tolerable) s = true) :
    ∃ tm,parseDate now s = some tm ∧ (FiledUnder env.json request s tm ↔ plainDate s = true ∧ ClockInPlace s tm) := by
  rw [validDatabaseDate,Bool.and_eq_true,decide_eq_true_eq] at hvalid
  obtain ⟨hlength,hdate⟩ := hvalid
  obtain ⟨tm,htm,-⟩ := (Option.any_eq_true _ _).mp hdate
  obtain ⟨l⟩ := exists_layout htm
  obtain ⟨patched,hminute⟩ := processorSetupMinute_eq hrequest hs hlength
  have hhour : tm.hour ≤ 23 := l.hour_eq ▸ l.hour.le_high
  have hmin : tm.min ≤ 59 := l.min_eq ▸ l.minute.le_high
  have hday : tm.day ≤ 31 := l.day_eq ▸ l.day.le_high
  -- with a plain date, both readings start behind the same ten characters
  have hclock (hplain : plainDate s = true) :
      60*numberAt s 11+numberAt s 14 = 60*tm.hour+tm.min ↔ ClockInPlace s tm := by
    have hsplit := l.date_eq hplain
    rw [l.numberAt_eq hsplit 1,l.numberAt_eq hsplit 4,l.clockInPlace_iff hsplit,l.clock_iff]
  refine ⟨tm,htm,?_,?_⟩
  · rintro ⟨⟨patched',hminute'⟩,-,hname⟩
    have hplain := plainDate_of_take hday (date_iff.mp hname)
    rw [hminute] at hminute'
    exact ⟨hplain,(hclock hplain).mp (Prod.mk.inj (Except.ok.inj hminute')).1⟩
  · rintro ⟨hplain,hplace⟩
    refine ⟨⟨patched,hminute.trans ?_⟩,by omega,date_iff.mpr ?_⟩
    · rw [(hclock hplain).mpr hplace]
    · rw [l.date_eq hplain,List.take_left' tm.length_dateText]

/-- A request that only has a start. -/
def requestStartedAt (s : Bytes) : JObject := [(lit "started_at",.str s)]

def lastTick : Tm := ⟨2026,1,31,9,15,31⟩

theorem filedUnder_sample :
    (requestStartedAt (lit "2026-01-31T09:15:30.100")).lookup (lit "started_at") = some (.str (lit "2026-01-31T09:15:30.100")) ∧
      validDatabaseDate (sampleEnv.checkingDates lastTick fun _ => true) (lit "2026-01-31T09:15:30.100") = true ∧
      ∃ tm,parseDate lastTick (lit "2026-01-31T09:15:30.100") = some tm ∧
        (FiledUnder sampleEnv.json (requestStartedAt (lit "2026-01-31T09:15:30.100")) (lit "2026-01-31T09:15:30.100") tm ↔
          plainDate (lit "2026-01-31T09:15:30.100") = true ∧ ClockInPlace (lit "2026-01-31T09:15:30.100") tm) := by
  have hvalid : validDatabaseDate (sampleEnv.checkingDates lastTick fun _ => true) (lit "2026-01-31T09:15:30.100") = true := by
    decide +kernel
  exact ⟨rfl,hvalid,validDatabaseDate_filedUnder_iff sampleEnv lastTick (fun _ => true) rfl rfl hvalid⟩

/-- Month and hour of one digit: the request is stored for the minute 0 of a day that is none. -/
theorem filedUnder_short_fields :
    validDatabaseDate (sampleEnv.checkingDates lastTick fun _ => true) (lit "2026-1-31 9:15:30.10") = true ∧
      parseDate lastTick (lit "2026-1-31 9:15:30.10") = some ⟨2026,1,31,9,15,30⟩ ∧
      (∃ patched,processorSetupMinute sampleEnv.json (requestStartedAt (lit "2026-1-31 9:15:30.10")) = .ok (0,patched)) ∧
      databaseName (lit "shop-production") (lit "2026-1-31 9:15:30.10") = lit "logjam-shop-production-2026-1-31 " :=
  ⟨by decide +kernel,by decide +kernel,⟨_,rfl⟩,by decide +kernel⟩

end Logjam.Importer
