import Logjam.Importer.DropReasons
import Logjam.Library.Loop

/-! The loop that scans frontend timings, with the pointer it reads from and the array it writes to.
Reading past the terminating NUL and writing outside of the array are faults. -/
namespace Logjam.Importer
open Logjam.Library
open Logjam.Exporter (fields Digits digitsFrom)

/-- The byte a pointer into a C string points to. -/
def readChar (s : Bytes) (p : ℕ) : Except Fault UInt8 :=
  if p < s.length then .ok (s.getD p 0)
  else if p = s.length then .ok 0
  else .error .outOfBounds

def writeEntry (times : List ℤ) (n : ℕ) (value : ℤ) : Except Fault (List ℤ) :=
  if n < times.length then .ok (times.set n value) else .error .outOfBounds

/-- The variables of the loop. -/
structure TimingScan where
  p : ℕ
  n : ℕ
  value : ℤ
  times : List ℤ

/-- One round, and what is returned for the end of the string. -/
def timingRound (rts : Bytes) (numTimings : ℕ) (s : TimingScan) : TimingScan ⊕ Except Fault (Bool × List ℤ) :=
  match readChar rts s.p with
  | .error fault => .inr (.error fault)
  | .ok c =>
    if c = 44 ∨ c = 0 then
      match writeEntry s.times s.n s.value with
      | .error fault => .inr (.error fault)
      | .ok times =>
        if s.n+1 = numTimings ∧ c ≠ 0 then .inr (.ok (false,times))
        else if c = 0 then .inr (.ok (!decide (s.n+1 < numTimings),times))
        else .inl ⟨s.p+1,s.n+1,0,times⟩
    else if isDigit c then .inl { s with p := s.p+1, value := toInt64 (s.value*10+((c.toNat : ℤ)-48)) }
    else .inr (.ok (false,s.times))

/-- extract_frontend_timings with the array it is given, for a number of rounds. -/
def extractFrontendTimingsInto (lib : JsonLib) (request : JObject) (numTimings : ℕ) (timings : List ℤ)
    (rounds : ℕ) : Option (Except Fault (Bool × List ℤ)) :=
  match request.lookup (lit "rts") with
  | none => some (.ok (false,timings))
  | some v =>
    match jsonString lib v with
    | .error fault => some (.error fault)
    | .ok rts => whileLoop (timingRound rts numTimings) rounds ⟨0,0,0,timings⟩

variable {numTimings : ℕ}

lemma readChar_cons (before : Bytes) (c : UInt8) (rest : Bytes) :
    readChar (before ++ c::rest) before.length = .ok c := by
  rw [readChar,if_pos (by simp)]
  simp

lemma readChar_end (s : Bytes) : readChar s s.length = .ok 0 := by
  rw [readChar,if_neg (lt_irrefl _),if_pos rfl]

/-- Completed fields stand at the start of the array. -/
lemma take_set_length {acc times : List ℤ} (htake : times.take acc.length = acc) (hlt : acc.length < times.length)
    (value : ℤ) : (times.set acc.length value).take (acc ++ [value]).length = acc ++ [value] := by
  rw [List.length_append,List.length_singleton,List.take_add_one,List.getElem?_set_self hlt,
    List.take_set_of_le le_rfl,htake]
  rfl

/-- The loop follows the scanner of lists. It reads every byte of the string and its NUL at most, and
every field it completes has a place in the array. -/
lemma timingRound_run {rts rest : Bytes} (hzero : 0 ∉ rest) (before : Bytes) (hrts : rts = before ++ rest)
    {acc times : List ℤ} (value : ℤ) (hlength : times.length = numTimings) (hlt : acc.length < numTimings)
    (htake : times.take acc.length = acc) :
    ∃ returned final,whileLoop (timingRound rts numTimings) (rest.length+1) ⟨before.length,acc.length,value,times⟩ =
      some (.ok (returned,final)) ∧
      scanTimings numTimings rest acc value = if returned then some final else none := by
  induction rest generalizing before acc times value with
  | nil =>
    rw [List.append_nil] at hrts
    have hread : readChar rts before.length = .ok 0 := hrts ▸ readChar_end before
    refine ⟨!decide (acc.length+1 < numTimings),times.set acc.length value,?_,?_⟩
    · simp [whileLoop,timingRound,hread,writeEntry,hlength,hlt]
    · by_cases hmore : acc.length+1 < numTimings
      · simp [scanTimings,hmore]
      · have hfull : (acc ++ [value]).length = (times.set acc.length value).length := by simp; omega
        have hfinal := take_set_length htake (hlength ▸ hlt) value
        rw [hfull,List.take_length] at hfinal
        simp [scanTimings,hmore,hfinal]
  | cons c rest ih =>
    have hread : readChar rts before.length = .ok c := hrts ▸ readChar_cons before c rest
    have hc : c ≠ 0 := fun h => hzero (h ▸ List.mem_cons_self)
    have hrest : 0 ∉ rest := fun h => hzero (List.mem_cons_of_mem c h)
    have happend : rts = (before ++ [c]) ++ rest := by rw [hrts,List.append_assoc]; rfl
    by_cases hcomma : c = 44
    · have hwrite : writeEntry times acc.length value = .ok (times.set acc.length value) :=
        if_pos (hlength ▸ hlt)
      by_cases hfull : acc.length+1 = numTimings
      · refine ⟨false,times.set acc.length value,?_,?_⟩
        · simp [whileLoop,timingRound,hread,hcomma,hwrite,hfull]
        · simp [scanTimings,hcomma,hfull]
      · -- the next field is still inside of the array
        have hnext : (acc ++ [value]).length < numTimings := by
          rw [List.length_append,List.length_singleton]
          omega
        obtain ⟨returned,final,hrun,hscan⟩ := ih hrest (before ++ [c]) happend 0
          (by rw [List.length_set,hlength]) hnext (take_set_length htake (hlength ▸ hlt) value)
        refine ⟨returned,final,?_,?_⟩
        · rw [← hrun]
          simp [whileLoop,timingRound,hread,hcomma,hwrite,hfull]
        · rw [← hscan]
          simp [scanTimings,hcomma,hfull]
    · by_cases hdigit : isDigit c = true
      · obtain ⟨returned,final,hrun,hscan⟩ := ih hrest (before ++ [c]) happend
          (toInt64 (value*10+((c.toNat : ℤ)-48))) hlength hlt htake
        refine ⟨returned,final,?_,?_⟩
        · rw [← hrun]
          simp [whileLoop,timingRound,hread,hcomma,hc,hdigit]
        · rw [← hscan]
          simp [scanTimings,hcomma,hdigit]
      · refine ⟨false,times,?_,?_⟩
        · simp [whileLoop,timingRound,hread,hcomma,hc,hdigit]
        · simp [scanTimings,hcomma,hdigit]

lemma zero_notMem_of_string {lib : JsonLib} {v : Json} {s : Bytes} (h : jsonObjectGetString lib v = some s) :
    0 ∉ s := by
  cases v <;> simp only [jsonObjectGetString,Option.some.injEq,reduceCtorEq] at h <;>
    exact h ▸ zero_notMem_cstr _

/-- The scanner on the array and the scanner that returns a list accept the same strings, with the same values. -/
theorem extractFrontendTimingsInto_eq {lib : JsonLib} {request : JObject} {v : Json} {rts : Bytes} {timings : List ℤ}
    (hlookup : request.lookup (lit "rts") = some v) (hrts : jsonObjectGetString lib v = some rts)
    (hcount : 0 < numTimings) (hlength : timings.length = numTimings) :
    ∃ returned final,extractFrontendTimingsInto lib request numTimings timings (rts.length+1) =
      some (.ok (returned,final)) ∧
      readTimings numTimings rts = if returned then some final else none := by
  have hstring : jsonString lib v = .ok rts := by rw [jsonString,hrts]
  have hempty : ([] : List ℤ).length < numTimings := hcount
  obtain ⟨returned,final,hrun,hscan⟩ := timingRound_run (zero_notMem_of_string hrts) [] rfl 0 hlength hempty rfl
  refine ⟨returned,final,?_,?_⟩
  · rw [extractFrontendTimingsInto,hlookup]
    dsimp only
    rw [hstring]
    exact hrun
  · rw [← scanTimings_eq hcount]
    exact hscan

/-- Exactly the strings of as many fields of digits as there are timings are accepted, an entry is the
value of its field if that fits, and no access is out of bounds: neither of the string nor of the array,
which holds just the timings asked for. -/
theorem extractFrontendTimings_language {lib : JsonLib} {request : JObject} {v : Json} {rts : Bytes}
    {timings : List ℤ} (hlookup : request.lookup (lit "rts") = some v)
    (hrts : jsonObjectGetString lib v = some rts) (hcount : 1 ≤ numTimings) (hlength : timings.length = numTimings) :
    ∃ returned final,extractFrontendTimingsInto lib request numTimings timings (rts.length+1) =
        some (.ok (returned,final)) ∧
      (returned = true ↔ (fields rts).length = numTimings ∧ ∀ field ∈ fields rts,Digits field) ∧
      (returned = true → ∀ (i : ℕ) field,(fields rts)[i]? = some field → digitsFrom 0 field < 2^63 →
        final[i]? = some (digitsFrom 0 field : ℤ)) := by
  obtain ⟨returned,final,hrun,hread⟩ := extractFrontendTimingsInto_eq hlookup hrts hcount hlength
  refine ⟨returned,final,hrun,?_,?_⟩
  · rw [readTimings] at hread
    split_ifs at hread with haccepted hreturned hreturned
    · exact iff_of_true hreturned haccepted
    · exact iff_of_false hreturned haccepted
  · intro hreturned i field hfield hfits
    rw [readTimings,hreturned,if_pos rfl] at hread
    split_ifs at hread
    have hvalue : toInt64 (digitsFrom 0 field) = digitsFrom 0 field := toInt64_of_lt (by omega) (by exact_mod_cast hfits)
    rw [← Option.some.inj hread,List.getElem?_map,hfield,Option.map_some,hvalue]

theorem extractFrontendTimings_language_sample :
    ∃ returned final,extractFrontendTimingsInto JsonLib.blank [(lit "rts",.str (lit "12,,7"))] 3 [0,0,0] 6 =
        some (.ok (returned,final)) ∧
      (returned = true ↔ (fields (lit "12,,7")).length = 3 ∧ ∀ field ∈ fields (lit "12,,7"),Digits field) ∧
      (returned = true → ∀ (i : ℕ) field,(fields (lit "12,,7"))[i]? = some field → digitsFrom 0 field < 2^63 →
        final[i]? = some (digitsFrom 0 field : ℤ)) :=
  have hstring : jsonObjectGetString JsonLib.blank (.str (lit "12,,7")) = some (lit "12,,7") := by decide
  extractFrontendTimings_language rfl hstring (by decide) rfl

end Logjam.Importer
