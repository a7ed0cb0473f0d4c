import Logjam.Basic.Calendar

/-! The days by which backups are named, and how Go parses and compares them. -/
namespace Logjam.Backup

def daysIn (month year : ℕ) : ℕ :=
  if month = 2 ∧ isLeapYear year = true then 29 else [31,28,31,30,31,30,31,31,30,31,30,31].getD (month-1) 0

/-- A day of a year with four digits. In Go it is the midnight it starts with, which Truncate leaves as it is. -/
@[ext] structure CalendarDate where
  year : ℕ
  month : ℕ
  day : ℕ
  year_le : year ≤ 9999
  month_pos : 1 ≤ month
  month_le : month ≤ 12
  day_pos : 1 ≤ day
  day_le : day ≤ daysIn month year
  deriving DecidableEq

namespace CalendarDate

def text (d : CalendarDate) : Bytes := padded 4 d.year ++ 45::(padded 2 d.month ++ 45::padded 2 d.day)

/-- Earlier days are smaller. -/
def order : CalendarDate → CalendarDate → Ordering :=
  compareLex (compareOn year) (compareLex (compareOn month) (compareOn day))

instance : Std.TransCmp order := inferInstanceAs (Std.TransCmp (compareLex _ _))

instance : Std.LawfulEqCmp order where
  eq_of_compare := by
    intro a b h
    simp only [order,compareLex_eq_eq,compareOn] at h
    exact CalendarDate.ext (Std.LawfulEqCmp.eq_of_compare h.1) (Std.LawfulEqCmp.eq_of_compare h.2.1) (Std.LawfulEqCmp.eq_of_compare h.2.2)

/-- Before of two days. -/
def before (a b : CalendarDate) : Bool := order a b == .lt

/-- The checks of a year, a month and a day. -/
def ofNumbers (year month day : ℕ) : Option CalendarDate :=
  if h : year ≤ 9999 ∧ 1 ≤ month ∧ month ≤ 12 ∧ 1 ≤ day ∧ day ≤ daysIn month year then
    some ⟨year,month,day,h.1,h.2.1,h.2.2.1,h.2.2.2.1,h.2.2.2.2⟩
  else none

lemma ofNumbers_eq_some_iff {year month day : ℕ} {d : CalendarDate} :
    ofNumbers year month day = some d ↔ d.year = year ∧ d.month = month ∧ d.day = day := by
  unfold ofNumbers
  split_ifs with h
  · rw [Option.some_inj,CalendarDate.ext_iff,eq_comm (a := year),eq_comm (a := month),eq_comm (a := day)]
  · refine iff_of_false nofun ?_
    rintro ⟨rfl,rfl,rfl⟩
    exact h ⟨d.year_le,d.month_pos,d.month_le,d.day_pos,d.day_le⟩

lemma day_lt (d : CalendarDate) : d.day < 100 := by
  have hmonths : ∀ m < 13,[31,28,31,30,31,30,31,31,30,31,30,31].getD (m-1) 0 ≤ 31 := by decide
  have hle : daysIn d.month d.year ≤ 31 := by
    have hmonth := d.month_le
    unfold daysIn
    split_ifs
    · decide
    · exact hmonths d.month (by omega)
  have hday := d.day_le
  omega

lemma length_text (d : CalendarDate) : d.text.length = 10 := by
  simp only [text,List.length_append,List.length_cons,length_padded]

end CalendarDate

/-- The layout 2006-01-02 of time.Parse. -/
def timeParse (value : Bytes) : Option CalendarDate :=
  let year := value.take 4
  let month := (value.drop 5).take 2
  let day := value.drop 8
  if value = year ++ 45::(month ++ 45::day) ∧ year.length = 4 ∧ month.length = 2 ∧ day.length = 2 ∧
      ∀ c ∈ year ++ (month ++ day),isDigit c = true then
    CalendarDate.ofNumbers (digitsValue year) (digitsValue month) (digitsValue day)
  else none

lemma timeParse_append {year month day : Bytes} (hyear : year.length = 4) (hmonth : month.length = 2)
    (hday : day.length = 2) (hdigits : ∀ c ∈ year ++ (month ++ day),isDigit c = true) :
    timeParse (year ++ 45::(month ++ 45::day)) =
      CalendarDate.ofNumbers (digitsValue year) (digitsValue month) (digitsValue day) := by
  have hy : (year ++ 45::(month ++ 45::day)).take 4 = year := List.take_left' hyear
  have hm : ((year ++ 45::(month ++ 45::day)).drop 5).take 2 = month := by
    rw [show 5 = year.length+1 by omega,List.drop_length_add_append,List.drop_succ_cons,List.drop_zero,List.take_left' hmonth]
  have hd : (year ++ 45::(month ++ 45::day)).drop 8 = day := by
    rw [show 8 = year.length+(1+(month.length+1)) by omega,List.drop_length_add_append,Nat.add_comm 1,List.drop_succ_cons,
      List.drop_length_add_append,List.drop_succ_cons,List.drop_zero]
  unfold timeParse
  dsimp only
  rw [hy,hm,hd,if_pos ⟨rfl,hyear,hmonth,hday,hdigits⟩]

/-- Exactly the texts of days are parsed. -/
lemma timeParse_eq_some_iff {value : Bytes} {d : CalendarDate} : timeParse value = some d ↔ value = d.text := by
  constructor
  · intro h
    unfold timeParse at h
    dsimp only at h
    split_ifs at h with hshape
    obtain ⟨hvalue,hyear,hmonth,hday,hdigits⟩ := hshape
    simp only [List.forall_mem_append] at hdigits
    obtain ⟨hy,hm,hd⟩ := CalendarDate.ofNumbers_eq_some_iff.mp h
    have hyear' := padded_digitsValue hdigits.1
    have hmonth' := padded_digitsValue hdigits.2.1
    have hday' := padded_digitsValue hdigits.2.2
    rw [hyear,← hy] at hyear'
    rw [hmonth,← hm] at hmonth'
    rw [hday,← hd] at hday'
    rw [CalendarDate.text,hyear',hmonth',hday']
    exact hvalue
  · rintro rfl
    have hyear : digitsValue (padded 4 d.year) = d.year := digitsValue_padded (Nat.lt_succ_of_le d.year_le)
    have hmonth : digitsValue (padded 2 d.month) = d.month :=
      digitsValue_padded (Nat.lt_of_le_of_lt d.month_le (by decide))
    have hday : digitsValue (padded 2 d.day) = d.day := digitsValue_padded d.day_lt
    rw [CalendarDate.text,timeParse_append (length_padded _ _) (length_padded _ _) (length_padded _ _),hyear,hmonth,hday]
    · exact CalendarDate.ofNumbers_eq_some_iff.mpr ⟨rfl,rfl,rfl⟩
    · simp only [List.forall_mem_append]
      exact ⟨fun _ => isDigit_of_mem_padded,fun _ => isDigit_of_mem_padded,fun _ => isDigit_of_mem_padded⟩

/-! The shape of a date in a regular expression. -/

/-- The classes of \d\d\d\d-\d\d-\d\d. -/
def dateClasses : List (UInt8 → Bool) :=
  [isDigit,isDigit,isDigit,isDigit,(· == 45),isDigit,isDigit,(· == 45),isDigit,isDigit]

/-- Digits and dashes in the places of a date, which need not exist. -/
def DateShaped (date : Bytes) : Prop := List.Forall₂ (fun p c => p c = true) dateClasses date

lemma DateShaped.length {date : Bytes} (h : DateShaped date) : date.length = 10 := h.length_eq.symm

lemma CalendarDate.dateShaped_text (d : CalendarDate) : DateShaped d.text := by
  have hdigit : ∀ n,isDigit (digitByte (n%10)) = true := fun n => isDigit_digitByte (Nat.mod_lt n (by decide))
  simp [DateShaped,dateClasses,text,padded,hdigit]

end Logjam.Backup
