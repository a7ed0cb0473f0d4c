import Logjam.Basic.Time
import Logjam.Library.Rounding

/-! Calendar times as numbers of seconds, and what is left of their difference in a double and in an int. -/
namespace Logjam
open Logjam.Library

/-- What localtime_r and mktime make of the time zone. The number beside the time is tm_isdst, which mktime
finds as localtime_r has left it. -/
structure TimeZone where
  localtime : ℤ → Tm × ℤ
  mktime : Tm × ℤ → ℤ

/-! Universal time. -/

def isLeapYear (year : ℤ) : Bool := year%4 == 0 && (year%100 != 0 || year%400 == 0)

/-- The days from the first year to the given one. -/
def daysBeforeYear (year : ℤ) : ℤ := 365*(year-1)+(year-1)/4-(year-1)/100+(year-1)/400

def daysBeforeMonth (leap : Bool) (month : ℕ) : ℤ :=
  [0,31,59,90,120,151,181,212,243,273,304,334].getD (month-1) 0+if leap && decide (2 < month) then 1 else 0

/-- The seconds since 1970. Days and seconds may be more than their month and their minute have. -/
def Tm.timegm (tm : Tm) : ℤ :=
  let days := daysBeforeYear tm.year+daysBeforeMonth (isLeapYear tm.year) tm.month+tm.day-1-daysBeforeYear 1970
  ((days*24+tm.hour)*60+tm.min)*60+tm.sec

/-- The calendar time of a number of seconds since 1970, with years that start in March: then the leap day is
the last day of a year, and the months have 153 days in every five of them. -/
def gmtime (seconds : ℤ) : Tm :=
  let days := seconds/86400+719468
  let era := days/146097
  let dayOfEra := days%146097
  let yearOfEra := (dayOfEra-dayOfEra/1460+dayOfEra/36524-dayOfEra/146096)/365
  let dayOfYear := dayOfEra-(365*yearOfEra+yearOfEra/4-yearOfEra/100)
  let monthFromMarch := (5*dayOfYear+2)/153
  let month := if monthFromMarch < 10 then monthFromMarch+3 else monthFromMarch-9
  let clock := seconds%86400
  ⟨(yearOfEra+era*400+if month ≤ 2 then 1 else 0).toNat,month.toNat,(dayOfYear-(153*monthFromMarch+2)/5+1).toNat,
    (clock/3600).toNat,(clock/60%60).toNat,(clock%60).toNat⟩

def TimeZone.utc : TimeZone := ⟨fun t => (gmtime t,0),fun tm => tm.1.timegm⟩

example : gmtime 1709207999 = ⟨2024,2,29,11,59,59⟩ ∧ Tm.timegm ⟨2024,2,29,11,59,59⟩ = 1709207999 := by decide +kernel

/-! Differences. -/

/-- The difference of two times, in a double. -/
def difftime (time1 time0 : ℤ) : ℤ := (time1-time0).sign*nearest 52 (time1-time0).natAbs

/-- The conversion of a double to an int on x86-64. -/
def intOfDouble (x : ℤ) : ℤ := if -2^31 ≤ x ∧ x < 2^31 then x else -2^31

/-- The absolute value of an int, modulo 2^32. -/
def absInt (n : ℤ) : ℤ := (|n|).bmod (2^32)

/-- A difference that fits an int is exact. -/
lemma absInt_difftime_of_lt {time1 time0 : ℤ} (h : |time1-time0| < 2^31) :
    absInt (intOfDouble (difftime time1 time0)) = |time1-time0| := by
  obtain ⟨hlow,hhigh⟩ := abs_lt.mp h
  have hdouble : difftime time1 time0 = time1-time0 := by
    rw [difftime,nearest_of_lt (by omega),Int.sign_mul_natAbs]
  rw [hdouble,intOfDouble,if_pos ⟨by omega,hhigh⟩,absInt]
  have hpos := abs_nonneg (time1-time0)
  exact Int.bmod_eq_of_le_mul_two (by omega) (by omega)

/-- Any other difference ends as the most negative int, which is its own absolute value. -/
lemma absInt_difftime_of_le {time1 time0 : ℤ} (h : 2^31 ≤ |time1-time0|) :
    absInt (intOfDouble (difftime time1 time0)) = -2^31 := by
  have hnatAbs : 2^31 ≤ (time1-time0).natAbs := by
    rw [Int.abs_eq_natAbs] at h
    exact_mod_cast h
  have hnearest : 2^31 ≤ nearest 52 (time1-time0).natAbs := by
    rcases Nat.lt_or_ge (time1-time0).natAbs (2^(52+1)) with hlt | hge
    · rwa [nearest_of_lt hlt]
    · have hlarge := le_nearest hge
      omega
  have hdouble : 2^31 ≤ (difftime time1 time0).natAbs := by
    rwa [difftime,Int.natAbs_mul,Int.natAbs_sign_of_ne_zero (by omega),Nat.one_mul,Int.natAbs_natCast]
  have hint : intOfDouble (difftime time1 time0) = -2^31 := by
    rw [intOfDouble]
    split_ifs
    · omega
    · rfl
  rw [hint]
  decide

end Logjam
