import Logjam.Basic.Calendar
import Logjam.Importer.StartedAt

/-! How far the start of a request may be from the current time. The difference of the two is a double, and what
is compared with the threshold is the absolute value of an int. -/
namespace Logjam.Importer

def invalidDate : ℤ := -1

/-- Two days. -/
def invalidMsgAgeThreshold : ℤ := 172800

/-- The number of seconds that is compared with the threshold. -/
def drift (res timeLastTick : ℤ) : ℤ := absInt (intOfDouble (difftime res timeLastTick))

/-- The function valid_database_date with the time that it returns. -/
def validDatabaseTime (zone : TimeZone) (timeLastTick : ℤ) (date : Bytes) : ℤ :=
  if date.length < 19 then invalidDate
  else
    let time := zone.localtime timeLastTick
    match parseDate time.1 date with
    | none => invalidDate
    | some tm =>
      let res := zone.mktime (tm,time.2)
      if drift res timeLastTick > invalidMsgAgeThreshold then invalidDate else res

/-- The times that the check lets through. -/
def tolerates (zone : TimeZone) (timeLastTick : ℤ) (tm : Tm) : Bool :=
  let res := zone.mktime (tm,(zone.localtime timeLastTick).2)
  decide (drift res timeLastTick ≤ invalidMsgAgeThreshold) && decide (res ≠ invalidDate)

variable {n : ℕ} {zone : TimeZone} {timeLastTick : ℤ} {date : Bytes} {tm : Tm}

lemma validDatabaseTime_of_parseDate (h : parseDate (zone.localtime timeLastTick).1 date = some tm) :
    validDatabaseTime zone timeLastTick date =
      if date.length < 19 ∨ drift (zone.mktime (tm,(zone.localtime timeLastTick).2)) timeLastTick > invalidMsgAgeThreshold
      then invalidDate else zone.mktime (tm,(zone.localtime timeLastTick).2) := by
  simp only [validDatabaseTime,h,ite_or]

/-- The importer asks only whether the time is valid. -/
theorem validDatabaseDate_checkingDates (env : Env n) (zone : TimeZone) (timeLastTick : ℤ) (date : Bytes) :
    validDatabaseDate (env.checkingDates (zone.localtime timeLastTick).1 (tolerates zone timeLastTick)) date =
      decide (validDatabaseTime zone timeLastTick date ≠ invalidDate) := by
  rw [validDatabaseDate,Env.checkingDates]
  cases h : parseDate (zone.localtime timeLastTick).1 date with
  | none => simp [validDatabaseTime,h]
  | some tm =>
    rw [validDatabaseTime_of_parseDate h]
    by_cases hlength : date.length < 19
    · simp [hlength]
    · by_cases hdrift : drift (zone.mktime (tm,(zone.localtime timeLastTick).2)) timeLastTick > invalidMsgAgeThreshold
      · simp [h,hdrift,tolerates]
      · simp [h,hlength,hdrift,tolerates,not_lt.mp hdrift,not_lt.mp hlength]

lemma drift_le_iff (res timeLastTick : ℤ) : drift res timeLastTick ≤ invalidMsgAgeThreshold ↔
    |res-timeLastTick| ≤ invalidMsgAgeThreshold ∨ 2^31 ≤ |res-timeLastTick| := by
  rcases lt_or_ge (|res-timeLastTick|) (2^31) with hlt | hge
  · rw [drift,absInt_difftime_of_lt hlt]
    exact (or_iff_left (not_le.mpr hlt)).symm
  · rw [drift,absInt_difftime_of_le hge]
    exact iff_of_true (by decide) (.inr hge)

/-- A time that is accepted is close to the current time, unless their difference does not fit an int: then it
counts as negative, however large it is. -/
theorem validDatabaseTime_close_iff (h : parseDate (zone.localtime timeLastTick).1 date = some tm) :
    (validDatabaseTime zone timeLastTick date ≠ invalidDate →
      |validDatabaseTime zone timeLastTick date-timeLastTick| ≤ invalidMsgAgeThreshold) ↔
      date.length < 19 ∨ zone.mktime (tm,(zone.localtime timeLastTick).2) = invalidDate ∨
        |zone.mktime (tm,(zone.localtime timeLastTick).2)-timeLastTick| < 2^31 := by
  rw [validDatabaseTime_of_parseDate h]
  generalize zone.mktime (tm,(zone.localtime timeLastTick).2) = res
  have hthreshold : invalidMsgAgeThreshold < 2^31 := by decide
  have hdrift := drift_le_iff res timeLastTick
  by_cases hlength : date.length < 19
  · simp [hlength]
  by_cases hfar : drift res timeLastTick > invalidMsgAgeThreshold
  · rw [if_pos (.inr hfar)]
    have hfits : |res-timeLastTick| < 2^31 := by
      by_contra hlarge
      exact not_le.mpr hfar (hdrift.mpr (.inr (not_lt.mp hlarge)))
    exact iff_of_true (absurd rfl) (.inr (.inr hfits))
  · rw [if_neg (not_or.mpr ⟨hlength,hfar⟩)]
    rcases hdrift.mp (not_lt.mp hfar) with hclose | hlarge
    · exact iff_of_true (fun _ => hclose) (.inr (.inr (hclose.trans_lt hthreshold)))
    · have hnot : ¬|res-timeLastTick| ≤ invalidMsgAgeThreshold := not_le.mpr (hthreshold.trans_le hlarge)
      simp only [hnot,hlength,not_lt.mpr hlarge,imp_false,not_not,false_or,or_false]

/-- The end of January 2026. -/
def tick : ℤ := 1769850931

theorem validDatabaseTime_close_sample :
    parseDate (TimeZone.utc.localtime tick).1 (lit "2026-01-31T09:15:30.100") = some ⟨2026,1,31,9,15,30⟩ ∧
      ((validDatabaseTime .utc tick (lit "2026-01-31T09:15:30.100") ≠ invalidDate →
        |validDatabaseTime .utc tick (lit "2026-01-31T09:15:30.100")-tick| ≤ invalidMsgAgeThreshold) ↔
        (lit "2026-01-31T09:15:30.100").length < 19 ∨ TimeZone.utc.mktime (⟨2026,1,31,9,15,30⟩,0) = invalidDate ∨
          |TimeZone.utc.mktime (⟨2026,1,31,9,15,30⟩,0)-tick| < 2^31) :=
  have hparse : parseDate (TimeZone.utc.localtime tick).1 (lit "2026-01-31T09:15:30.100") = some ⟨2026,1,31,9,15,30⟩ := by
    decide +kernel
  ⟨hparse,validDatabaseTime_close_iff hparse⟩

/-- A start 74 years ahead is accepted. -/
theorem validDatabaseTime_far_future :
    validDatabaseTime .utc tick (lit "2100-01-31 00:00:00") = 4105036800 ∧
      validDatabaseTime .utc tick (lit "2100-01-31 00:00:00") ≠ invalidDate ∧
      ¬|validDatabaseTime .utc tick (lit "2100-01-31 00:00:00")-tick| ≤ invalidMsgAgeThreshold := by
  decide +kernel

end Logjam.Importer
